-- Starting a child on a machine: a channel is made for it, the attempt runs as
-- `Launch` says, and the child gets its end of the channel and nothing else
-- that its parent had opened.
import ProcessTree.Invocation
import ProcessTree.Machine.Channels
import ProcessTree.Machine.Signals
import ProcessTree.Spawn.Handover
import ProcessTree.Spawn.Launch

namespace ProcessTree.Machine

/-! ## The channel of a child -/

/-- The ends of a new channel in the process that made it: its own, and those for its child. -/
structure NewChannel where
  receive : Nat
  send : Nat
  child : ChildEnds
  deriving DecidableEq, Repr

/-- Makes the two pipes of a channel, the one that the child writes first. -/
def openEnds (m : Machine) (pid : Nat) : NewChannel × Machine :=
  let (receive, childSend, m) := m.openPipe pid
  let (childReceive, send, m) := m.openPipe pid
  (⟨receive, send, ⟨childReceive, childSend⟩⟩, m)

/-! ## The program of a child -/

/-- The configuration that a process finds in its variables. -/
def configOf (m : Machine) (c : Credentials) : Except ConfigError Config :=
  Config.ofLookup c.user c.group m.environment.lookup

/-- Whether there is a configuration does not depend on who looks for it. -/
theorem configOf_ok {m : Machine} {c : Credentials} {config : Config} (h : m.configOf c = .ok config)
    (c' : Credentials) : ∃ config', m.configOf c' = .ok config' := by
  unfold configOf Config.ofLookup at h ⊢
  cases hoverrides : Overrides.ofLookup m.environment.lookup with
  | error e => simp [hoverrides, Except.map] at h
  | ok overrides => exact ⟨_, rfl⟩

/-- What a program does that was run with these arguments; one that is not told a role ends at
once. -/
def programOf (m : Machine) (c : Credentials) (args : List OsText) : Program :=
  match Invocation.ofArgs args, m.behaviour with
  | .ok (.reentry role fds), .role => .role (.start role fds (m.configOf c))
  | .ok (.reentry _ fds), .standIn s _ => .standIn fds s
  | _, _ => .standIn .fixed (.exits 1)

/-- The signals that do nothing to a program when it starts. -/
def ignoredBy : Behaviour → List Signal
  | .role => [.pipe]
  | .standIn _ ignored => ignored

/-- The arguments of a child, its program's name first. -/
def argsOf (options : SpawnOptions) (ends : ChildEnds) : List OsText :=
  options.executable :: (options.arguments (Handover.told ends)).map .ofText

/-- A child whose program is about to do something. -/
def newProc (m : Machine) (parent : Nat) (options : SpawnOptions) (ends : ChildEnds)
    (fds : FdTable) (pid : Nat) : Proc :=
  let credentials := m.host.inherits (m.credentialsOf parent) options
  { Proc.start pid parent fds credentials (m.programOf credentials (argsOf options ends)) with
    ignored := ignoredBy m.behaviour
    first := options.namespaces.pid
    dieWithParent := options.dieWithParent }

/-! ## Starting it -/

/-- How running its program goes for a child. -/
def executes (m : Machine) (parent : Nat) (options : SpawnOptions) (ends : ChildEnds) :
    Except Errno Unit :=
  m.host.executes (m.host.inherits (m.credentialsOf parent) options)
    ⟨options.executable, argsOf options ends, m.environment⟩

/-- Starts a child over its ends of a channel, which the parent then no longer has. -/
def launch (m : Machine) (pid : Nat) (options : SpawnOptions) (ends : ChildEnds) :
    Except ProcessError Nat × Machine :=
  let (syncRead, syncWrite, opened) := m.openPipe pid
  let (statusRead, statusWrite, opened) := opened.openPipe pid
  let closed := opened.closeFds pid
    [syncRead, syncWrite, statusRead, statusWrite, ends.receive, ends.send]
  let table := Handover.run options.fdPassing ends statusWrite (opened.fdsOf pid)
  let program := table.bind fun _ => m.executes pid options ends
  let caller := m.credentialsOf pid
  match Launch.run (m.host.answers caller) program options caller.toMapWriter, table with
  | .ok (), .ok fds =>
    let (child, m) := closed.addProc (m.newProc pid options ends fds)
    (.ok child, m)
  | .error e, _ => (.error e, closed)
  | .ok (), .error e => (.error (.spawnFailed options.role e.message), closed)

/-- Whatever comes of it, the parent closes what it opened for the attempt and the ends of the
child. -/
theorem launch_eq {m m' : Machine} {pid : Nat} {options : SpawnOptions} {ends : ChildEnds}
    {result : Except ProcessError Nat} (h : m.launch pid options ends = (result, m')) :
    ∃ syncRead syncWrite opened statusRead statusWrite opened',
      m.openPipe pid = (syncRead, syncWrite, opened) ∧
      opened.openPipe pid = (statusRead, statusWrite, opened') ∧
      let closed := opened'.closeFds pid
        [syncRead, syncWrite, statusRead, statusWrite, ends.receive, ends.send]
      ((∃ e, result = .error e) ∧ m' = closed) ∨
        ∃ fds, Handover.run options.fdPassing ends statusWrite (opened'.fdsOf pid) = .ok fds ∧
          result = .ok closed.nextPid ∧
          m' = (closed.addProc (m.newProc pid options ends fds)).2 := by
  rcases hfirst : m.openPipe pid with ⟨syncRead, syncWrite, opened⟩
  rcases hsecond : opened.openPipe pid with ⟨statusRead, statusWrite, opened'⟩
  refine ⟨_, _, _, _, _, _, rfl, hsecond, ?_⟩
  unfold launch at h
  rw [hfirst] at h
  simp only [hsecond] at h ⊢
  split at h
  · rename_i fds _ htable
    cases h
    exact Or.inr ⟨fds, htable, rfl, rfl⟩
  · cases h
    exact Or.inl ⟨⟨_, rfl⟩, rfl⟩
  · cases h
    exact Or.inl ⟨⟨_, rfl⟩, rfl⟩

/-- Starts a child with a fresh channel, and keeps the other side of it. If the child does not
start, nothing is kept. -/
def spawn (m : Machine) (pid : Nat) (options : SpawnOptions) :
    Except ProcessError (Handle × NewChannel) × Machine :=
  let (ends, m) := m.openEnds pid
  match m.launch pid options ends.child with
  | (.ok child, m) => (.ok (⟨options.role, child, none, options.killGrace⟩, ends), m)
  | (.error e, m) => (.error e, m.closeFds pid [ends.receive, ends.send])

/-- A child that is started has the other ends; if none is, the parent keeps nothing. -/
theorem spawn_eq {m m' : Machine} {pid : Nat} {options : SpawnOptions}
    {result : Except ProcessError (Handle × NewChannel)}
    (h : m.spawn pid options = (result, m')) :
    ∃ ends opened, m.openEnds pid = (ends, opened) ∧
      ((∃ child, opened.launch pid options ends.child = (.ok child, m') ∧
          result = .ok (⟨options.role, child, none, options.killGrace⟩, ends)) ∨
        ∃ e closed, opened.launch pid options ends.child = (.error e, closed) ∧
          result = .error e ∧ m' = closed.closeFds pid [ends.receive, ends.send]) := by
  rcases hends : m.openEnds pid with ⟨ends, opened⟩
  refine ⟨ends, opened, rfl, ?_⟩
  unfold spawn at h
  rw [hends] at h
  simp only at h
  split at h
  · rename_i child m₁ hlaunch
    cases h
    exact Or.inl ⟨child, hlaunch, rfl⟩
  · rename_i e m₁ hlaunch
    cases h
    exact Or.inr ⟨e, m₁, hlaunch, rfl, rfl⟩

end ProcessTree.Machine
