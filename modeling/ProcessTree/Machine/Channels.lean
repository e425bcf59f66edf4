-- Channels between the processes of a machine: how a process opens one, reads
-- it in the background, sends, and closes it, and how it gets hold of the ends
-- that another process has.
import ProcessTree.Machine.Basic

namespace ProcessTree.Machine

/-! ## Opening -/

/-- Whether a file can be what a channel writes to. -/
def checkWriter : Option OpenFile → Except ChannelError Unit
  | some (.writeEnd _) => .ok ()
  | some (.readEnd _) => .error (.io .notWritable)
  | some .device => .error (.io .notPipe)
  | none => .error (.io (.system .badDescriptor))

/-- Whether a file can be what a channel reads from. -/
def checkReader : Option OpenFile → Except ChannelError Unit
  | some (.readEnd _) => .ok ()
  | some (.writeEnd _) => .error (.io .notReadable)
  | some .device => .error (.io .notPipe)
  | none => .error (.io (.system .badDescriptor))

/-- Whether a channel can be made of two descriptors; the one to write to is looked at first. -/
def checkEnds (t : FdTable) (writer reader : Nat) : Except ChannelError Unit := do
  checkWriter ((t.get? writer).map (·.file))
  checkReader ((t.get? reader).map (·.file))

/-- Makes a channel of two descriptors of a process. If they make none, they are closed. -/
def openChannel {In : Type} (m : Machine) (pid : Nat) (outbound inbound : Registry)
    (writer reader : Nat) : Except ChannelError (Channel In) × Machine :=
  match checkEnds (m.fdsOf pid) writer reader with
  | .ok () => (.ok (.start outbound inbound writer reader), m)
  | .error e => (.error e, m.closeFds pid [writer, reader])

/-! ## Reading -/

section Reading

variable {In : Type} [Message In]

/-- Closes the descriptor that a channel reads from once it reads no more. -/
def settleReader (m : Machine) (pid : Nat) (c : Channel In) : Channel In × Machine :=
  if c.inbound.isOver then ({ c with reader := none }, m.closeFds pid c.reader.toList) else (c, m)

/-- One move of the receiver of a channel, if it can move: a message goes into the queue, or the
stream is read. -/
def pump? (m : Machine) (pid : Nat) (c : Channel In) : Option (Channel In × Machine) :=
  match c.inbound.deliver? with
  | some inbound => some ({ c with inbound }, m)
  | none =>
    match c.inbound.wants, c.reader with
    | 0, _ | _, none => none
    | n, some fd =>
      match m.read pid fd n with
      | (.waits, _) => none
      | (.got bytes, m) => some (m.settleReader pid { c with inbound := c.inbound.take bytes })
      | (.finished, m) =>
        some (m.settleReader pid { c with inbound := c.inbound.fail .channelClosed })
      | (.failed errno, m) =>
        some (m.settleReader pid { c with inbound := c.inbound.fail (.io (.system errno)) })

end Reading

/-! ## Sending -/

section Sending

variable {In : Type}

/-- Ends the outbound direction of a channel. -/
def finishWriter (m : Machine) (pid : Nat) (c : Channel In) (e : ChannelError) :
    Channel In × Machine :=
  ({ c with outbound := c.outbound.finish e, writer := none, unsent := none },
    m.closeFds pid c.writer.toList)

/-- Writes what is left of a frame until it is complete or a call fails or has to wait; nothing is
said while it has to wait. -/
def push (m : Machine) (pid fd : Nat) (c : Channel In) (s : Sending) :
    Option (Except ChannelError Unit) × Channel In × Machine :=
  if _hs : s.offer = [] then (some (.ok ()), { c with unsent := none }, m)
  else
    match m.write pid fd s.offer with
    | (.waits, _) => (none, { c with unsent := some s }, m)
    | (.failed errno, m) =>
      let (c, m) := m.finishWriter pid c (.io (.system errno))
      (some (.error (.io (.system errno))), c, m)
    | (.took n, m) =>
      if _hn : n = 0 then
        let (c, m) := m.finishWriter pid c .streamClosed
        (some (.error .streamClosed), c, m)
      else push m pid fd c (s.drop n)
termination_by s.size
decreasing_by exact s.size_drop_lt n (by assumption) (by assumption)

/-- Goes on with the send under way; one that has nothing left to write is done. -/
def goOn (m : Machine) (pid : Nat) (c : Channel In) :
    Option (Except ChannelError Unit) × Channel In × Machine :=
  match c.unsent, c.writer with
  | none, _ => (some (.ok ()), c, m)
  | some _, none => (some (.error c.outbound.refusal), c.abandon, m)
  | some s, some fd => m.push pid fd c s

/-- Sends a message as far as it goes, or goes on with the send under way; nothing is said while it
has to wait. -/
def send {Out : Type} [Message Out] (m : Machine) (pid : Nat) (c : Channel In) (message : Out) :
    Option (Except ChannelError Unit) × Channel In × Machine :=
  if c.unsent.isSome then m.goOn pid c
  else match c.outbound.begin message with
    | .ok s => m.goOn pid { c with unsent := some s }
    | .error e => (some (.error e), c, m)

end Sending

/-! ## Closing -/

/-- Closes both directions of a channel. -/
def closeChannel {In : Type} (m : Machine) (pid : Nat) (c : Channel In) : Channel In × Machine :=
  ({ outbound := c.outbound.close, inbound := c.inbound.stop, writer := none, reader := none,
     unsent := none },
    m.closeFds pid (c.writer.toList ++ c.reader.toList))

/-! ## Copying descriptors from one process to another

A number that another process reports only means something in the table of that process. -/

/-- Copies a descriptor of a process into another one. The copy is closed on exec, and stays open
when the donor closes its own. -/
def fetch (m : Machine) (receiver donor : Nat) (number : Int) :
    Except BrokerError Nat × Machine :=
  let failed (e : Errno) : Except BrokerError Nat × Machine :=
    (.error (.fdTransferFailed donor number e), m)
  if !m.isAlive donor then failed .noSuchProcess
  else match (m.fdsOf donor).get? number with
    | none => failed .badDescriptor
    | some d =>
      let (copy, fds) := (m.fdsOf receiver).install 0 ⟨d.file, true⟩
      (.ok copy, m.modifyFds receiver fun _ => fds)

/-- What comes out of a pipe when bytes are written through a fetched copy of its write end, after
the write end that was copied is closed. -/
def relay (m : Machine) (pid : Nat) (bytes : Bytes) : Except BrokerError Bytes :=
  let (reader, writer, m) := m.openPipe pid
  match m.fetch pid pid writer with
  | (.error e, _) => .error e
  | (.ok copy, m) =>
    let (_, m) := (m.closeFds pid [writer]).write pid copy bytes
    match (m.closeFds pid [copy]).read pid reader Pipe.capacity with
    | (.got bytes, _) => .ok bytes
    | _ => .ok []

end ProcessTree.Machine
