-- Who can write to a job: the call that has its reply and copies from the worker, the one that has
-- returned the job, and the worker until its next event. The root's calls give it to nobody else.
import ProcessTree.Proofs.Worker.Desertion

namespace ProcessTree.Desertion

variable {x x' : Desertion} {k pipe pid n root worker : Nat}
  {mine mine' theirs theirs' : Nat → Prop}

/-! ## Who may write to a job -/

/-- The root has it under these numbers at most, the worker under those, and nobody else. -/
def Parties (root worker : Nat) (mine theirs : Nat → Prop) (pid n : Nat) : Prop :=
  (pid = root ∧ mine n) ∨ (pid = worker ∧ theirs n)

theorem Parties.imp (h : Parties root worker mine theirs pid n) (hmine : ∀ n, mine n → mine' n)
    (htheirs : ∀ n, theirs n → theirs' n) : Parties root worker mine' theirs' pid n :=
  Or.imp (And.imp_right (hmine n)) (And.imp_right (htheirs n)) h

/-- What the root may write to a job over: what the call has copied that has its turn and asked for
it, and what a call has returned. -/
def RootMay (x : Pickup) (k n : Nat) : Prop :=
  (n ∈ x.fetched ∧ x.exchange.desk.holder.bind Caller.place = some k) ∨
    ∃ j ∈ x.returned, j.caller.place = some k ∧ n ∈ j.files.map Prod.fst

/-- What the worker may write to a job over, which is what it keeps of the last. -/
def WorkerMay (x : Pickup) (k n : Nat) : Prop :=
  k + 1 = x.opened.length ∧ ∃ ends, x.machine.handoffOf x.worker = some ends ∧ n = ends.2

theorem RootMay.mono {x y : Pickup} (h : RootMay x k n) (hfetched : x.fetched ⊆ y.fetched)
    (hplace : x.fetched ≠ [] → y.exchange.desk.holder.bind Caller.place =
      x.exchange.desk.holder.bind Caller.place) (hreturned : x.returned ⊆ y.returned) :
    RootMay y k n := by
  rcases h with ⟨hn, hof⟩ | ⟨j, hj, hmay⟩
  · exact .inl ⟨hfetched hn, (hplace (List.ne_nil_of_mem hn)).trans hof⟩
  · exact .inr ⟨j, hreturned hj, hmay⟩

theorem WorkerMay.of_same {x y : Pickup} (h : WorkerMay x k n) (hopened : y.opened = x.opened)
    (hhandoff : y.machine.handoffOf y.worker = x.machine.handoffOf x.worker) :
    WorkerMay y k n := by
  obtain ⟨hlast, ends, hends, hn⟩ := h
  exact ⟨hopened ▸ hlast, ends, hhandoff.trans hends, hn⟩

/-- The root has hold of a job, or a call still may. -/
def Keeps (x : Pickup) (k : Nat) : Prop :=
  (∃ hd, x.exchange.desk.holder = some hd ∧ hd.place = some k) ∨
    ∃ j ∈ x.returned, j.caller.place = some k ∧ j.isHeld = true

theorem keeps_of_rootMay {x : Pickup} (h : RootMay x k n) : Keeps x k := by
  rcases h with ⟨-, hplace⟩ | ⟨j, hj, hplace, hn⟩
  · exact .inl (Option.bind_eq_some_iff.mp hplace)
  · refine .inr ⟨j, hj, hplace, ?_⟩
    by_contra hgone
    unfold Returned.files at hn
    rw [if_neg hgone] at hn
    cases hn

/-! ## The invariant -/

structure Sound (x : Desertion) : Prop where
  exchange : ∃ parent tail back, x.exchange.Sound parent tail back
  latest : x.exchange.desk.Latest
  /-- Only a call that has its reply has copied anything. -/
  idle : x.fetched ≠ [] → ∃ hd reply, x.exchange.desk.holder = some hd ∧ hd.reply? = some reply
  piped : x.toPickup.Piped
  grounded : x.machine.Grounded x.root x.worker
  /-- The worker keeps nothing across an event, and so nothing when it starts a job. -/
  handed : ∀ ends, x.machine.handoffOf x.worker = some ends → x.attended < x.opened.length ∧
    ∀ request, x.exchange.service.loop.stage ≠ .starting request
  attended : x.attended ≤ x.opened.length
  within : ∀ k pipe, x.opened[k]? = some pipe → x.machine.Within (.writeEnd (pipe + 1))
    (Parties x.root x.worker (RootMay x.toPickup k) (WorkerMay x.toPickup k))
  count : x.jobs.length = x.opened.length
  single : x.jobs.Nodup
  apart : ∀ pid ∈ x.jobs, pid ≠ x.root ∧ pid ≠ x.worker ∧ pid < x.machine.nextPid
  plays : ∀ pid ∈ x.jobs, x.machine.PlaysJob pid
  silent : ∀ k pipe pid, x.opened[k]? = some pipe → x.jobs[k]? = some pid → k ∉ x.connected →
    x.machine.Silent pid (pipe + 1)

theorem Sound.old (h : x.Sound) (hpipe : x.opened[k]? = some pipe) :
    pipe + 1 < x.machine.pipes.length := h.piped.old pipe (List.mem_of_getElem? hpipe)

theorem Sound.job_apart (h : x.Sound) (hjob : x.jobs[k]? = some pid) :
    pid ≠ x.root ∧ pid ≠ x.worker ∧ pid < x.machine.nextPid :=
  h.apart pid (List.mem_of_getElem? hjob)

/-! ## Changes of the machine -/

/-- Whatever happens there that neither side has a part in. -/
theorem Sound.onMachine (h : x.Sound) {m : Machine} (hgrounded : m.Grounded x.root x.worker)
    (hhandoff : m.handoffOf x.worker = x.machine.handoffOf x.worker)
    (hgains : ∀ pipe ∈ x.opened, ∀ who, x.machine.Within (.writeEnd (pipe + 1)) who →
      m.Within (.writeEnd (pipe + 1)) who)
    (hlonger : x.machine.pipes.length ≤ m.pipes.length) (hlater : x.machine.nextPid ≤ m.nextPid)
    (hplays : ∀ pid ∈ x.jobs, x.machine.PlaysJob pid → m.PlaysJob pid)
    (hsilent : ∀ k pipe pid, x.opened[k]? = some pipe → x.jobs[k]? = some pid → k ∉ x.connected →
      x.machine.Silent pid (pipe + 1) → m.Silent pid (pipe + 1)) :
    ({ x with machine := m } : Desertion).Sound := by
  refine ⟨h.exchange, h.latest, h.idle, h.piped.same rfl rfl hlonger, hgrounded, ?_, h.attended, ?_,
    h.count, h.single, ?_, ?_, ?_⟩
  · intro ends hends
    exact h.handed ends (hhandoff ▸ hends)
  · intro k pipe hpipe
    refine (hgains pipe (List.mem_of_getElem? hpipe) _ (h.within k pipe hpipe)).mono ?_
    exact fun q n hn => hn.imp (fun _ => id) fun _ hmay => hmay.of_same rfl hhandoff
  · intro pid hpid
    obtain ⟨hroot, hworker, hold⟩ := h.apart pid hpid
    exact ⟨hroot, hworker, Nat.lt_of_lt_of_le hold hlater⟩
  · intro pid hpid
    exact hplays pid hpid (h.plays pid hpid)
  · intro k pipe pid hpipe hjob hconnected
    exact hsilent k pipe pid hpipe hjob hconnected (h.silent k pipe pid hpipe hjob hconnected)

/-- The root changes what it has open, and its calls go on. -/
theorem Sound.of_root (h : x.Sound) {exchange : Exchange} {machine : Machine} {fetched : List Nat}
    {returned : List Returned} {connected : List Nat}
    (hexchange : ∃ parent tail back, exchange.Sound parent tail back)
    (hlatest : exchange.desk.Latest)
    (hidle : fetched ≠ [] → ∃ hd reply, exchange.desk.holder = some hd ∧ hd.reply? = some reply)
    (hservice : exchange.service = x.exchange.service)
    (halters : x.machine.Alters machine x.root) (hgrounded : machine.Grounded x.root x.worker)
    (hwithin : ∀ k pipe, x.opened[k]? = some pipe → machine.Within (.writeEnd (pipe + 1))
      (Parties x.root x.worker
        (RootMay { x.toPickup with exchange, machine, fetched, returned } k)
        (WorkerMay x.toPickup k)))
    (hmore : ∀ k ∈ x.connected, k ∈ connected) :
    ({ x with exchange, machine, fetched, returned, connected } : Desertion).Sound := by
  have hhandoff : machine.handoffOf x.worker = x.machine.handoffOf x.worker :=
    Machine.handoffOf_of_proc (halters.others _ h.grounded.apart.symm)
  have hpipes := halters.pipes
  refine ⟨hexchange, hlatest, hidle, ?_, hgrounded, ?_, h.attended, ?_, h.count, h.single, ?_, ?_,
    ?_⟩
  · exact h.piped.same rfl (congrArg Service.made hservice) (by rw [hpipes])
  · intro ends hends
    simp only [hservice]
    exact h.handed ends (hhandoff ▸ hends)
  · intro k pipe hpipe
    exact (hwithin k pipe hpipe).mono fun q n hn =>
      hn.imp (fun _ => id) fun _ hmay => hmay.of_same rfl hhandoff
  · intro pid hpid
    rw [halters.rest]
    exact h.apart pid hpid
  · intro pid hpid
    exact (h.plays pid hpid).others (halters.others pid (h.apart pid hpid).1)
  · intro k pipe pid hpipe hjob hconnected
    refine (h.silent k pipe pid hpipe hjob fun hk => hconnected (hmore k hk)).others
      (halters.others pid (h.job_apart hjob).1) ?_
    rw [hpipes]

/-- The worker changes what it has open and keeps, and its loop goes on. -/
theorem Sound.of_worker (h : x.Sound) {exchange : Exchange} {machine : Machine} {attended : Nat}
    (hexchange : ∃ parent tail back, exchange.Sound parent tail back)
    (hdesk : exchange.desk = x.exchange.desk)
    (hmade : exchange.service.made = x.exchange.service.made)
    (halters : x.machine.Alters machine x.worker) (hgrounded : machine.Grounded x.root x.worker)
    (hhanded : ∀ ends, machine.handoffOf x.worker = some ends → attended < x.opened.length ∧
      ∀ request, exchange.service.loop.stage ≠ .starting request)
    (hattended : attended ≤ x.opened.length)
    (hwithin : ∀ k pipe, x.opened[k]? = some pipe → machine.Within (.writeEnd (pipe + 1))
      (Parties x.root x.worker (RootMay x.toPickup k)
        (WorkerMay { x.toPickup with exchange, machine } k))) :
    ({ x with exchange, machine, attended } : Desertion).Sound := by
  have hpipes := halters.pipes
  refine ⟨hexchange, hdesk ▸ h.latest, hdesk ▸ h.idle, ?_, hgrounded, hhanded, hattended, ?_,
    h.count, h.single, ?_, ?_, ?_⟩
  · exact h.piped.same rfl hmade (by rw [hpipes])
  · intro k pipe hpipe
    refine (hwithin k pipe hpipe).mono fun q n hn => hn.imp (fun _ hmay => ?_) fun _ => id
    exact hmay.mono (List.Subset.refl _) (fun _ => by rw [hdesk]) (List.Subset.refl _)
  · intro pid hpid
    rw [halters.rest]
    exact h.apart pid hpid
  · intro pid hpid
    exact (h.plays pid hpid).others (halters.others pid (h.apart pid hpid).2.1)
  · intro k pipe pid hpipe hjob hconnected
    refine (h.silent k pipe pid hpipe hjob hconnected).others
      (halters.others pid (h.job_apart hjob).2.1) ?_
    rw [hpipes]

/-! ## The root's calls -/

theorem within_closeFds_root {m : Machine} {file : OpenFile} {gone : List Nat}
    (h : m.Within file (Parties root worker mine theirs))
    (hmine : ∀ n, mine n → n ∈ gone ∨ mine' n) :
    (m.closeFds root gone).Within file (Parties root worker mine' theirs) := by
  refine h.closeFds ?_
  rintro q n (⟨rfl, hn⟩ | hn)
  · exact (hmine n hn).imp (fun hgone => ⟨rfl, hgone⟩) fun hn => .inl ⟨rfl, hn⟩
  · exact .inr (.inr hn)

theorem within_closeFds_worker {m : Machine} {file : OpenFile} {gone : List Nat}
    (h : m.Within file (Parties root worker mine theirs))
    (htheirs : ∀ n, theirs n → n ∈ gone ∨ theirs' n) :
    (m.closeFds worker gone).Within file (Parties root worker mine theirs') := by
  refine h.closeFds ?_
  rintro q n (hn | ⟨rfl, hn⟩)
  · exact .inr (.inl hn)
  · exact (htheirs n hn).imp (fun hgone => ⟨rfl, hgone⟩) fun hn => .inr ⟨rfl, hn⟩

/-- Only the call that has its turn loses what it has copied, and it loses all of it. -/
theorem sound_turn (h : x.Sound) {exchange : Exchange}
    (hexchange : ∃ parent tail back, exchange.Sound parent tail back)
    (hservice : exchange.service = x.exchange.service)
    (hturn : Desk.Turn x.exchange.desk exchange.desk) :
    ({ x with toPickup := Pickup.release { x.toPickup with exchange } } : Desertion).Sound := by
  have hlatest := h.latest.turn hturn
  unfold Pickup.release
  cases hholder : exchange.desk.holder with
  | none =>
    refine h.of_root hexchange hlatest (fun hne => absurd rfl hne) hservice
      (Machine.touches_closeFds _ _ _).toAlters (h.grounded.closeFds _ _) ?_ fun _ hk => hk
    intro k pipe hpipe
    refine within_closeFds_root (h.within k pipe hpipe) ?_
    rintro n (⟨hn, -⟩ | hreturned)
    · exact .inl hn
    · exact .inr (.inr hreturned)
  | some hd =>
    -- A call that has copied something has its reply, so its turn goes on as it was.
    have hstays : x.fetched ≠ [] → exchange.desk.holder = x.exchange.desk.holder := by
      intro hne
      obtain ⟨hd', reply, hholder', hreply⟩ := h.idle hne
      cases hturn with
      | same hsame => exact hsame
      | early _ _ _ hbefore =>
        rw [hbefore hd' hholder'] at hreply
        cases hreply
      | ended _ hfree =>
        rw [hfree] at hholder
        cases hholder
    refine h.of_root hexchange hlatest ?_ hservice (Machine.alters_refl _ _) h.grounded ?_
      fun _ hk => hk
    · intro hne
      rw [hstays hne]
      exact h.idle hne
    · intro k pipe hpipe
      refine (h.within k pipe hpipe).mono fun q n hn => hn.imp (fun _ hmay => ?_) fun _ => id
      exact hmay.mono (List.Subset.refl _) (fun hne => by rw [hstays hne]) (List.Subset.refl _)

theorem sound_root (h : x.Sound) {move : Desk.Move}
    (hmove : x.next? (.pickup (.root move)) = some x') : x'.Sound := by
  obtain ⟨pickup, hpickup, rfl⟩ := Option.map_eq_some_iff.mp hmove
  obtain ⟨exchange, hgives, hnext, rfl⟩ := Pickup.next?_root_eq_some hpickup
  obtain ⟨parent, tail, back, hexchange⟩ := h.exchange
  obtain ⟨line, hdesk, hservice, -⟩ := Pickup.root_eq_some hnext
  exact sound_turn h ⟨parent, Exchange.sound_next hexchange hnext⟩ hservice
    (Desk.turn_of_next? hexchange.desk hgives hdesk)

/-- What a call is refused ends it. -/
theorem sound_refused (h : x.Sound) {answer : StartAnswer} {pickup : Pickup}
    (hgives : (Desk.Move.settle answer).gives = false)
    (hsettle : x.toPickup.settle? answer = some pickup) :
    ({ x with toPickup := pickup } : Desertion).Sound := by
  obtain ⟨exchange, hnext, rfl⟩ := Pickup.settle?_eq_some hsettle
  obtain ⟨parent, tail, back, hexchange⟩ := h.exchange
  obtain ⟨line, hdesk, hservice, -⟩ := Pickup.root_eq_some hnext
  exact sound_turn h ⟨parent, Exchange.sound_next hexchange hnext⟩ hservice
    (Desk.turn_of_next? hexchange.desk hgives hdesk)

/-- A call that takes its reply has not copied anything yet. -/
theorem sound_receive (h : x.Sound) (hmove : x.next? (.pickup .receive) = some x') : x'.Sound := by
  obtain ⟨pickup, hpickup, rfl⟩ := Option.map_eq_some_iff.mp hmove
  obtain ⟨exchange, hnext, rfl⟩ := Option.map_eq_some_iff.mp hpickup
  obtain ⟨parent, tail, back, hexchange⟩ := h.exchange
  have hexchange' := Exchange.sound_receive hexchange hnext
  obtain ⟨⟨received, up⟩, -, hnext⟩ := Option.bind_eq_some_iff.mp hnext
  obtain ⟨desk, hdesk, rfl⟩ := Option.map_eq_some_iff.mp hnext
  rcases Desk.turn_of_receive? hdesk with hturn | ⟨hd, reply, hholder, hcall, hholder', -⟩
  · exact sound_turn h ⟨_, _, _, hexchange'⟩ rfl hturn
  · have hnone : x.fetched = [] := by
      by_contra hne
      obtain ⟨hd', reply', hhd', hreply⟩ := h.idle hne
      rw [hholder] at hhd'
      cases hhd'
      simp only [Caller.reply?, hcall, reduceCtorEq] at hreply
    rw [Pickup.release_of_some (x := { x.toPickup with exchange := { x.exchange with desk, up } })
      hholder']
    refine h.of_root ⟨_, _, _, hexchange'⟩ (Desk.latest_receive hexchange.desk h.latest hdesk)
      (fun hne => absurd hnone hne) rfl (Machine.alters_refl _ _) h.grounded ?_ fun _ hk => hk
    intro k pipe hpipe
    refine (h.within k pipe hpipe).mono fun q n hn => hn.imp (fun _ hmay => ?_) fun _ => id
    exact hmay.mono (List.Subset.refl _) (absurd hnone) (List.Subset.refl _)

/-- The worker keeps the ends of no job but the call's own, when the call copies from it. -/
theorem Sound.last_of_reply (h : x.Sound) {hd : Caller} {reply : StartResult}
    (hholder : x.exchange.desk.holder = some hd) (hreply : hd.reply? = some reply) :
    ∃ k, hd.place = some k ∧ x.opened.length = k + 1 := by
  obtain ⟨parent, tail, back, hexchange⟩ := h.exchange
  obtain ⟨k, hplace, hlength, -⟩ := Pickup.settled hexchange h.latest hholder hreply
  exact ⟨k, hplace, h.piped.made.trans hlength⟩

theorem sound_fetch (h : x.Sound) (hmove : x.next? (.pickup .fetch) = some x') : x'.Sound := by
  obtain ⟨pickup, hpickup, rfl⟩ := Option.map_eq_some_iff.mp hmove
  obtain ⟨hd, number, machine, hholder, -, ⟨copy, hfetch, hsettle⟩ | ⟨e, hfetch, hsettle⟩⟩ :=
    Pickup.next?_fetch_eq_some hpickup
  · obtain ⟨exchange, (hnext : x.exchange.next? _ = some exchange), rfl⟩ :=
      Pickup.settle?_eq_some hsettle
    obtain ⟨parent, tail, back, hexchange⟩ := h.exchange
    obtain ⟨line, hdesk, hservice, -⟩ := Pickup.root_eq_some hnext
    obtain ⟨hd', reply, hhd', -, hstages⟩ := Desk.settle_fetched hdesk
    rw [hholder] at hhd'
    cases hhd'
    obtain ⟨hreply, call, hcall, hdesk'⟩ : hd.reply? = some reply ∧
        ∃ call, ({ hd with call } : Caller).reply? = some reply ∧
          exchange.desk = { x.exchange.desk with holder := some { hd with call } } := by
      rcases hstages with ⟨hcall, hdesk'⟩ | ⟨hcall, hdesk'⟩
      · exact ⟨by simp [Caller.reply?, hcall], _, rfl, hdesk'⟩
      · exact ⟨by simp [Caller.reply?, hcall], _, rfl, hdesk'⟩
    obtain ⟨last, hplace, hlast⟩ := h.last_of_reply hholder hreply
    have hholder' : exchange.desk.holder = some { hd with call } := by rw [hdesk']
    rw [Pickup.release_of_some (x := { x.toPickup with machine, fetched := _, exchange }) hholder']
    refine h.of_root ⟨parent, Exchange.sound_next hexchange hnext⟩ ?_
      (fun _ => ⟨_, reply, hholder', hcall⟩) hservice (Machine.alters_fetch hfetch)
      (h.grounded.fetch h.grounded.root hfetch) ?_ fun _ hk => hk
    · rw [hdesk']
      exact h.latest.goOn hholder (hcall.trans hreply.symm)
    · intro k pipe hpipe
      refine (h.within k pipe hpipe).fetch hfetch ?_ ?_
      · refine fun q n hn => hn.imp (fun _ hmay => ?_) fun _ => id
        exact hmay.mono (List.subset_append_left _ _) (fun _ => by rw [hholder', hholder]; rfl)
          (List.Subset.refl _)
      · -- The worker keeps ends of the last job only, and that is the call's own.
        rintro n - (⟨hsame, -⟩ | ⟨-, hk, -⟩)
        · exact absurd hsame h.grounded.apart.symm
        · refine .inl ⟨rfl, .inl ⟨List.mem_append_right _ List.mem_cons_self, ?_⟩⟩
          obtain rfl : last = k := by omega
          rw [hholder']
          exact hplace
  · obtain rfl := Machine.fetch_error hfetch
    exact sound_refused h rfl hsettle

theorem sound_connect (h : x.Sound) (hmove : x.next? (.pickup .connect) = some x') : x'.Sound := by
  obtain ⟨pickup, hpickup, rfl⟩ := Option.map_eq_some_iff.mp hmove
  obtain ⟨writer, reader, machine, hfetched, ⟨channel, hopen, hsettle⟩ | ⟨e, hopen, hsettle⟩⟩ :=
    Pickup.next?_connect_eq_some hpickup
  · obtain rfl : x.machine = machine := by
      unfold Machine.openChannel at hopen
      split at hopen
      · exact (Prod.mk.inj hopen).2
      · cases hopen
    obtain ⟨exchange, (hnext : x.exchange.next? _ = some exchange), rfl⟩ :=
      Pickup.settle?_eq_some hsettle
    obtain ⟨parent, tail, back, hexchange⟩ := h.exchange
    obtain ⟨line, hdesk, hservice, -⟩ := Pickup.root_eq_some hnext
    obtain ⟨hd, reply, hholder, -, hcall, hdesk'⟩ := Desk.settle_connected hdesk
    have hholder' : exchange.desk.holder = some { hd with call := .greeting reply } := by
      rw [hdesk']
    rw [Pickup.release_of_some (x := { x.toPickup with machine := x.machine, exchange }) hholder']
    refine h.of_root ⟨parent, Exchange.sound_next hexchange hnext⟩ ?_
      (fun _ => ⟨_, reply, hholder', rfl⟩) hservice (Machine.alters_refl _ _) h.grounded ?_
      fun _ hk => List.mem_append_left _ hk
    · rw [hdesk']
      exact h.latest.goOn hholder (by simp [Caller.reply?, hcall])
    · intro k pipe hpipe
      refine (h.within k pipe hpipe).mono fun q n hn => hn.imp (fun _ hmay => ?_) fun _ => id
      exact hmay.mono (List.Subset.refl _) (fun _ => by rw [hholder', hholder]; rfl)
        (List.Subset.refl _)
  · obtain rfl : x.machine.closeFds x.root [writer, reader] = machine := by
      unfold Machine.openChannel at hopen
      split at hopen
      · cases hopen
      · exact (Prod.mk.inj hopen).2
    -- Its descriptors are closed by then, and what follows is the end of the call.
    have hclosed : ({ x with
        machine := x.machine.closeFds x.root [writer, reader]
        fetched := []
        connected := x.connected ++ (pickup.exchange.desk.holder.bind Caller.place).toList } :
          Desertion).Sound := by
      refine h.of_root h.exchange h.latest (fun hne => absurd rfl hne) rfl
        (Machine.touches_closeFds _ _ _).toAlters (h.grounded.closeFds _ _) ?_
        fun _ hk => List.mem_append_left _ hk
      intro k pipe hpipe
      refine within_closeFds_root (h.within k pipe hpipe) ?_
      rintro n (⟨hn, -⟩ | hreturned)
      · exact .inl (hfetched ▸ hn)
      · exact .inr (.inr hreturned)
    exact sound_refused hclosed rfl hsettle

/-- A job that a call returns stays in hand. -/
theorem sound_greet (h : x.Sound) (hmove : x.next? (.pickup .greet) = some x') : x'.Sound := by
  obtain ⟨pickup, hpickup, rfl⟩ := Option.map_eq_some_iff.mp hmove
  obtain ⟨identity, reply, place, writer, reader, hholder, hfetched, hsettle⟩ :=
    Pickup.next?_greet_eq_some hpickup
  obtain ⟨exchange, (hnext : x.exchange.next? _ = some exchange), rfl⟩ :=
    Pickup.settle?_eq_some hsettle
  obtain ⟨parent, tail, back, hexchange⟩ := h.exchange
  obtain ⟨line, hdesk, hservice, -⟩ := Pickup.root_eq_some hnext
  obtain ⟨hd, reply', -, -, -, hdesk'⟩ := Desk.settle_greeted hdesk
  have hfree : exchange.desk.holder = none := by rw [hdesk']
  simp only [Pickup.release, hfree, Machine.closeFds_nil]
  refine h.of_root ⟨parent, Exchange.sound_next hexchange hnext⟩ ?_ (fun hne => absurd rfl hne)
    hservice (Machine.alters_refl _ _) h.grounded ?_ fun _ hk => hk
  · intro hd reply hholder'
    rw [hfree] at hholder'
    cases hholder'
  · intro k pipe hpipe
    refine (h.within k pipe hpipe).mono fun q n hn => hn.imp ?_ fun _ => id
    rintro n (⟨hn, hof⟩ | ⟨j, hj, hplace, hn⟩)
    · rw [hholder] at hof
      rw [hfetched] at hn
      exact .inr ⟨_, List.mem_append_right _ List.mem_cons_self, hof, hn⟩
    · exact .inr ⟨j, List.mem_append_left _ hj, hplace, hn⟩

theorem sound_letGo (h : x.Sound) {i : Nat} (hmove : x.next? (.pickup (.letGo i)) = some x') :
    x'.Sound := by
  obtain ⟨pickup, hpickup, rfl⟩ := Option.map_eq_some_iff.mp hmove
  obtain ⟨j, hj, rfl⟩ := Option.map_eq_some_iff.mp hpickup
  refine h.of_root h.exchange h.latest h.idle rfl (Machine.touches_closeFds _ _ _).toAlters
    (h.grounded.closeFds _ _) ?_ fun _ hk => hk
  intro k pipe hpipe
  refine within_closeFds_root (h.within k pipe hpipe) ?_
  rintro n (hfetched | ⟨j', hj', hplace, hn⟩)
  · exact .inr (.inl hfetched)
  · obtain ⟨l, hl⟩ := List.getElem?_of_mem hj'
    by_cases hsame : i = l
    · rw [← hsame, hj] at hl
      cases hl
      exact .inl hn
    · have hstays := (List.getElem?_set_ne hsame (a := { j with isHeld := false })).trans hl
      exact .inr (.inr ⟨j', List.mem_of_getElem? hstays, hplace, hn⟩)

end ProcessTree.Desertion
