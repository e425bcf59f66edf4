-- Both ends of one direction of a channel: a line, what was read from its wire,
-- and the receiver at the other end. Whatever is received was sent, in that
-- order, also while frames are still on their way or one was cut off.
import ProcessTree.Proofs.Channel.Line
import ProcessTree.Proofs.Channel.Receiver

namespace ProcessTree

open ProcessTree.Frame

/-- One direction of a channel, from its sender to its receiver. -/
structure Link (M : Type) where
  line : Line M
  /-- How many bytes the receiver has read. -/
  taken : Nat
  inbound : Inbound M

namespace Link

variable {M : Type}

/-- A direction in which nothing has happened yet; both ends have the same registry. -/
def start (r : Registry) : Link M := ⟨.start r, 0, .start r⟩

/-- How many bytes are on their way. -/
def inFlight (k : Link M) : Nat := k.line.emitted.length - k.taken

/-- The receiver is told that there is nothing to read any more. -/
def lose? (k : Link M) (e : ChannelError) : Option (Link M) :=
  if k.inbound.wants = 0 then none else some { k with inbound := k.inbound.fail e }

theorem lose?_eq_some {k k' : Link M} {e : ChannelError} (hlose : k.lose? e = some k') :
    0 < k.inbound.wants ∧ k' = { k with inbound := k.inbound.fail e } := by
  unfold lose? at hlose
  split at hlose
  · cases hlose
  · rename_i hwants
    cases hlose
    exact ⟨Nat.pos_of_ne_zero hwants, rfl⟩

variable [Message M]

/-- The receiver reads some of the bytes that are on their way, at most as many as it wants. -/
def read? (k : Link M) (n : Nat) : Option (Link M) :=
  if n = 0 ∨ k.inbound.wants < n ∨ k.line.emitted.length < k.taken + n then none
  else some { k with
    taken := k.taken + n
    inbound := k.inbound.take ((k.line.emitted.drop k.taken).take n) }

/-- A message goes into the queue of the receiver. -/
def deliver? (k : Link M) : Option (Link M) :=
  k.inbound.deliver?.map fun inbound => { k with inbound }

/-- A receive at the receiver's end. -/
def recv? (k : Link M) : Option (Except ChannelError M × Link M) :=
  k.inbound.recv?.map fun (answer, inbound) => (answer, { k with inbound })

/-- What happens between the ends. -/
inductive Carry where
  | read (n : Nat)
  | lose (e : ChannelError)
  | deliver
  deriving DecidableEq

def carry? (k : Link M) : Carry → Option (Link M)
  | .read n => k.read? n
  | .lose e => k.lose? e
  | .deliver => k.deliver?

/-! ## The receiver's end -/

/-- The receiver has read the front of what is on the wire, and these messages were received. -/
structure Reads (k : Link M) (r : Registry) (cause : ChannelError → Prop) (got : List M) :
    Prop where
  registry : k.inbound.registry = r
  taken : k.taken ≤ k.line.emitted.length
  follows : k.inbound.Follows cause (k.line.emitted.take k.taken) got

variable {k k' : Link M} {r : Registry} {cause : ChannelError → Prop} {tail tail' : Bytes}
  {got : List M}

/-- What is on the wire stays there. -/
theorem Reads.onLine (h : k.Reads r cause got) {line : Line M}
    (hmore : k.line.emitted <+: line.emitted) : ({ k with line } : Link M).Reads r cause got := by
  refine ⟨h.registry, h.taken.trans hmore.length_le, ?_⟩
  obtain ⟨more, hmore⟩ := hmore
  have hfollows := h.follows
  have htake : line.emitted.take k.taken = k.line.emitted.take k.taken := by
    rw [← hmore, List.take_append_of_le_length h.taken]
  rw [← htake] at hfollows
  exact hfollows

theorem read?_eq_some {n : Nat} (hread : k.read? n = some k') :
    0 < n ∧ n ≤ k.inbound.wants ∧ k.taken + n ≤ k.line.emitted.length ∧
      k' = ⟨k.line, k.taken + n, k.inbound.take ((k.line.emitted.drop k.taken).take n)⟩ := by
  unfold read? at hread
  split at hread
  · cases hread
  · rename_i hguard
    cases hread
    exact ⟨by omega, by omega, by omega, rfl⟩

theorem Reads.read (h : k.Reads r cause got) {n : Nat} (hread : k.read? n = some k') :
    k'.Reads r cause got ∧ k'.line = k.line := by
  obtain ⟨-, hwants, htaken, rfl⟩ := read?_eq_some hread
  have hlength : ((k.line.emitted.drop k.taken).take n).length ≤ k.inbound.wants := by
    rw [List.length_take]
    omega
  have hfollows := h.follows.take _ hlength
  rw [← List.take_add] at hfollows
  refine ⟨⟨?_, htaken, hfollows⟩, rfl⟩
  rw [← h.registry]
  exact (Inbound.take_frame k.inbound _).1

theorem Reads.lose (h : k.Reads r cause got) {e : ChannelError} (he : cause e)
    (hlose : k.lose? e = some k') : k'.Reads r cause got ∧ k'.line = k.line := by
  obtain ⟨hwants, rfl⟩ := lose?_eq_some hlose
  exact ⟨⟨h.registry, h.taken, h.follows.fail hwants e he⟩, rfl⟩

theorem Reads.deliver (h : k.Reads r cause got) (hdeliver : k.deliver? = some k') :
    k'.Reads r cause got ∧ k'.line = k.line := by
  obtain ⟨inbound, hinbound, rfl⟩ := Option.map_eq_some_iff.mp hdeliver
  have hfollows := h.follows.deliver hinbound
  obtain ⟨message, -, -, rfl⟩ := Inbound.deliver?_eq_some hinbound
  exact ⟨⟨h.registry, h.taken, hfollows⟩, rfl⟩

/-- What happens between the ends leaves the line as it is. -/
theorem Reads.carry (h : k.Reads r (fun _ => True) got) {c : Carry}
    (hcarry : k.carry? c = some k') : k'.Reads r (fun _ => True) got ∧ k'.line = k.line := by
  cases c with
  | read n => exact h.read hcarry
  | lose e => exact h.lose trivial hcarry
  | deliver => exact h.deliver hcarry

/-- A receive gets the next message, or, once the receiver has ended, the reason for that. -/
theorem Reads.recv (h : k.Reads r cause got) {answer : Except ChannelError M}
    (hrecv : k.recv? = some (answer, k')) :
    (∃ m, answer = .ok m ∧ k.inbound.queue = some m ∧
      k' = { k with inbound := { k.inbound with queue := none } } ∧
      k'.Reads r cause (got ++ [m])) ∨
      (∃ e, answer = .error e ∧ k' = k ∧ k.inbound.queue = none ∧ k.inbound.receiver = .ended ∧
        k.inbound.terminal = some e) := by
  obtain ⟨⟨answer', inbound⟩, hinbound, heq⟩ := Option.map_eq_some_iff.mp hrecv
  cases heq
  obtain ⟨m, hqueue, rfl, rfl⟩ | ⟨hqueue, hreceiver, rfl, rfl⟩ := Inbound.recv?_eq_some hinbound
  · exact Or.inl ⟨m, rfl, hqueue, rfl, ⟨h.registry, h.taken, h.follows.recv_ok hqueue⟩⟩
  · obtain ⟨-, e, hterm, -⟩ := h.follows.ended hqueue hreceiver
    rw [hterm]
    exact Or.inr ⟨e, rfl, rfl, hqueue, hreceiver, rfl⟩

/-- What was received and what is decoded are the messages of the bytes that were read, and so
the first ones of those that are on the wire. -/
theorem Reads.received (h : k.Reads r cause got) :
    got ++ k.inbound.ahead <+: (parse (M := M) r k.line.emitted).1 := by
  have hdecoded := h.follows.decoded
  rw [h.registry] at hdecoded
  rw [← hdecoded]
  exact parse_prefix r (List.take_prefix k.taken k.line.emitted)

/-! ## The invariant -/

/-- The line has put complete frames on the wire and these bytes behind them; the receiver has read
the front of all that, and these messages were received. -/
structure Sound (k : Link M) (r : Registry) (cause : ChannelError → Prop) (tail : Bytes)
    (got : List M) : Prop where
  line : k.line.Sound r tail
  registry : k.inbound.registry = r
  taken : k.taken ≤ k.line.emitted.length
  follows : k.inbound.Follows cause (k.line.emitted.take k.taken) got

theorem Sound.reads (h : k.Sound r cause tail got) : k.Reads r cause got :=
  ⟨h.registry, h.taken, h.follows⟩

theorem Reads.sound (h : k.Reads r cause got) (hline : k.line.Sound r tail) :
    k.Sound r cause tail got :=
  ⟨hline, h.registry, h.taken, h.follows⟩

theorem sound_start (r : Registry) (cause : ChannelError → Prop) :
    (start r : Link M).Sound r cause [] [] where
  line := Line.sound_start r
  registry := rfl
  taken := Nat.le_refl 0
  follows := Inbound.follows_start r cause

/-- The line goes on: what is on the wire stays there. -/
theorem Sound.onLine (h : k.Sound r cause tail got) {line : Line M} (hline : line.Sound r tail')
    (hmore : k.line.emitted <+: line.emitted) :
    ({ k with line } : Link M).Sound r cause tail' got :=
  (h.reads.onLine hmore).sound hline

theorem Sound.mono (h : k.Sound r cause tail got) {cause' : ChannelError → Prop}
    (hcause : ∀ e, cause e → cause' e) : k.Sound r cause' tail got :=
  ⟨h.line, h.registry, h.taken, h.follows.mono hcause⟩

theorem Sound.read (h : k.Sound r cause tail got) {n : Nat} (hread : k.read? n = some k') :
    k'.Sound r cause tail got := by
  obtain ⟨hreads, hline⟩ := h.reads.read hread
  exact hreads.sound (hline ▸ h.line)

theorem Sound.lose (h : k.Sound r cause tail got) {e : ChannelError} (he : cause e)
    (hlose : k.lose? e = some k') : k'.Sound r cause tail got := by
  obtain ⟨hreads, hline⟩ := h.reads.lose he hlose
  exact hreads.sound (hline ▸ h.line)

theorem Sound.deliver (h : k.Sound r cause tail got) (hdeliver : k.deliver? = some k') :
    k'.Sound r cause tail got := by
  obtain ⟨hreads, hline⟩ := h.reads.deliver hdeliver
  exact hreads.sound (hline ▸ h.line)

theorem Sound.carry (h : k.Sound r (fun _ => True) tail got) {c : Carry}
    (hcarry : k.carry? c = some k') :
    k'.Sound r (fun _ => True) tail got ∧ k'.line = k.line := by
  obtain ⟨hreads, hline⟩ := h.reads.carry hcarry
  exact ⟨hreads.sound (hline ▸ h.line), hline⟩

theorem Sound.recv (h : k.Sound r cause tail got) {answer : Except ChannelError M}
    (hrecv : k.recv? = some (answer, k')) :
    (∃ m, answer = .ok m ∧ k.inbound.queue = some m ∧
      k' = { k with inbound := { k.inbound with queue := none } } ∧
      k'.Sound r cause tail (got ++ [m])) ∨
      (∃ e, answer = .error e ∧ k' = k ∧ k.inbound.queue = none ∧ k.inbound.receiver = .ended ∧
        k.inbound.terminal = some e) := by
  rcases h.reads.recv hrecv with ⟨m, hm, hqueue, rfl, hreads⟩ | herror
  · exact Or.inl ⟨m, hm, hqueue, rfl, hreads.sound h.line⟩
  · exact Or.inr herror

/-! ## What is received was sent -/

/-- The parser finds the messages that were sent on the wire, and nothing wrong. -/
theorem Sound.parse_emitted (h : k.Sound r cause tail got) (hreads : Message.ReadsBack M) :
    parse (M := M) r k.line.emitted = (k.line.sent, .short tail) :=
  h.line.parse_emitted hreads

/-- What was received and what is decoded were sent, and in that order. -/
theorem Sound.received (h : k.Sound r cause tail got) (hreads : Message.ReadsBack M) :
    got ++ k.inbound.ahead <+: k.line.sent := by
  have hreceived := h.reads.received
  rw [h.parse_emitted hreads] at hreceived
  exact hreceived

/-- Once all complete frames were read, all that was sent is received or decoded. -/
theorem Sound.complete (h : k.Sound r cause tail got) (hreads : Message.ReadsBack M)
    (hall : k.taken = k.line.emitted.length) : got ++ k.inbound.ahead = k.line.sent := by
  have hdecoded := h.follows.decoded
  rw [h.registry, hall, List.take_length, h.parse_emitted hreads] at hdecoded
  exact hdecoded.symm

/-- Nothing on the wire ends the receiver: what ends it is a cause outside of the bytes. -/
theorem Sound.ended (h : k.Sound r cause tail got) (hreads : Message.ReadsBack M)
    {e : ChannelError} (hreceiver : k.inbound.receiver = .ended)
    (hterm : k.inbound.terminal = some e) : cause e := by
  have hstands := h.follows.stands
  unfold Inbound.Stands at hstands
  simp only [hreceiver, h.registry] at hstands
  obtain ⟨e', hterm', hstop⟩ := hstands
  rw [hterm] at hterm'
  cases hterm'
  rcases hstop with hfailed | ⟨-, hcause⟩
  · have hwhole := parse_append_of_failed (M := M) r (k.line.emitted.drop k.taken)
      (Prod.ext rfl hfailed)
    rw [List.take_append_drop, h.parse_emitted hreads] at hwhole
    cases congrArg Prod.snd hwhole
  · exact hcause

end Link

end ProcessTree
