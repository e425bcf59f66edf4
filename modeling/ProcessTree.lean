import ProcessTree.Channel.Summary
import ProcessTree.IdMap.Directory
import ProcessTree.Main
import ProcessTree.Proofs.Bytes
import ProcessTree.Proofs.MessagePack.RoundTrip
import ProcessTree.Proofs.MessagePack.Records
import ProcessTree.Proofs.Messages
import ProcessTree.Proofs.Channel.Receiver
import ProcessTree.Proofs.Channel.Reception
import ProcessTree.Proofs.Channel.Line
import ProcessTree.Proofs.Channel.Usage
import ProcessTree.Proofs.Channel.Link
import ProcessTree.Proofs.Channel.Delivery
import ProcessTree.Proofs.Channel.Inbox
import ProcessTree.Proofs.Channel.Retention
import ProcessTree.Process.Monitor
import ProcessTree.Proofs.Process.Supervision
import ProcessTree.Proofs.Worker.Desk
import ProcessTree.Proofs.Worker.Service
import ProcessTree.Proofs.Worker.Requests
import ProcessTree.Proofs.Worker.Exchange
import ProcessTree.Proofs.Worker.TornFrame
import ProcessTree.Proofs.Worker.Farewell
import ProcessTree.Proofs.Process.Descriptors
import ProcessTree.Proofs.Process.Spawning
import ProcessTree.Proofs.Invocation
import ProcessTree.Proofs.Process.Arrival
import ProcessTree.Proofs.Process.Escalation
import ProcessTree.Proofs.Process.Launching
import ProcessTree.Proofs.Worker.Turns
import ProcessTree.Proofs.Worker.Handoff
import ProcessTree.Proofs.Worker.Keeping
import ProcessTree.Proofs.Worker.Copying
import ProcessTree.Proofs.Worker.OwnPipes
import ProcessTree.Proofs.Worker.Dismissal
import ProcessTree.Proofs.Process.Mapping
import ProcessTree.Proofs.Process.Custody
import ProcessTree.Proofs.Role.Shift
import ProcessTree.Proofs.Role.Undisturbed
import ProcessTree.Proofs.Worker.Tenure
import ProcessTree.Proofs.MessagePack.Fields
import ProcessTree.Proofs.MessagePack.Spelling
import ProcessTree.Proofs.Text.Utf8
import ProcessTree.Proofs.Schema
import ProcessTree.Proofs.Text.Numeral
import ProcessTree.Proofs.Tolerance
import ProcessTree.Proofs.SelfDelimiting
import ProcessTree.Proofs.Process.Ending
import ProcessTree.Proofs.Process.Offspring
import ProcessTree.Proofs.Role.Discharge
import ProcessTree.Proofs.Role.ZygoteMoves
import ProcessTree.Proofs.Role.Departure
import ProcessTree.Proofs.Role.GracefulEnd
import ProcessTree.Proofs.Process.Holders
import ProcessTree.Proofs.Role.Entry
import ProcessTree.Proofs.Role.Silence
import ProcessTree.Proofs.Role.JobMoves
import ProcessTree.Proofs.Worker.Desertion
import ProcessTree.Proofs.Worker.Ground
import ProcessTree.Proofs.Worker.Writers
import ProcessTree.Proofs.Worker.Unowned
import ProcessTree.Proofs.ArgumentGrammar
import ProcessTree.Proofs.Job.Deeds
import ProcessTree.Proofs.Job.Use
import ProcessTree.Proofs.Job.Finality
import ProcessTree.Proofs.Job.EndOfStream
import ProcessTree.Proofs.Deadlines
import ProcessTree.Proofs.Registry
import ProcessTree.Proofs.IdMap.Writing
import ProcessTree.Proofs.IdMap.Rows
import ProcessTree.Proofs.Overrides
