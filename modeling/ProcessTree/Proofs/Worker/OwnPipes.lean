-- A job is connected with its own pipes. The worker's side: it keeps the ends of
-- the job that it started last, and opens two new pipes for the next one; the
-- kernel gives the same numbers out again, but what was copied stays.
import Mathlib.Logic.Relation
import ProcessTree.Proofs.Worker.Copying

namespace ProcessTree.Pickup

variable {x x' : Pickup} {parent : Int32} {root worker : Nat}

/-! ## Moves of the worker -/

theorem worker_eq_some {e e' : Exchange} {move : Service.Move}
    (hmove : e.next? (.worker move) = some e') :
    e.service.next? e.up.line move = some (e'.service, e'.up.line) ∧ e'.desk = e.desk := by
  obtain ⟨⟨service, line⟩, hservice, rfl⟩ := Option.map_eq_some_iff.mp hmove
  exact ⟨hservice, rfl⟩

theorem sound_worker (h : x.Sound parent root worker) {move : Service.Move}
    (hmove : x.next? (.worker move) = some x') : x'.Sound parent root worker := by
  obtain ⟨r, exchange, hsignal, hmake, hrole, hnext, rfl⟩ := next?_worker_eq_some hmove
  obtain ⟨tail, back, hexchange⟩ := h.exchange
  obtain ⟨tail', back', hexchange'⟩ := Exchange.sound_next hexchange hnext
  obtain ⟨hservice, hdesk⟩ := worker_eq_some hnext
  obtain ⟨r', config, hplays, hconfig, hloop, hkeeps⟩ := h.kept
  rw [hplays.role] at hrole
  cases hrole
  refine h.of_worker ⟨_, _, hexchange'⟩ hdesk rfl rfl rfl rfl (List.prefix_refl _) ?_ ?_
    (h.piped.same rfl (Service.made_of_next? hmake hservice) (Nat.le_refl _))
  · intro owned hhas
    exact hhas.withRole_other h.apart _
  · exact ⟨_, config, hplays.withRole _, hconfig, rfl,
      Service.keeps_next hexchange.service hkeeps hsignal hmake hservice⟩

/-- Before the worker takes a message it lets go of what it kept. -/
theorem sound_hear (h : x.Sound parent root worker) (hmove : x.next? .hear = some x') :
    x'.Sound parent root worker := by
  obtain ⟨r, m, down, exchange, hrole, hrecv, hnext, rfl⟩ := next?_hear_eq_some hmove
  obtain ⟨tail, back, hexchange⟩ := h.exchange
  have hexchange' := Exchange.sound_hear hexchange hnext
  obtain ⟨⟨received, down'⟩, hrecv', hnext⟩ := Option.bind_eq_some_iff.mp hnext
  rw [hrecv] at hrecv'
  cases hrecv'
  obtain ⟨service, hhear, rfl⟩ := Option.map_eq_some_iff.mp hnext
  obtain ⟨r', config, hplays, hconfig, hloop, -⟩ := h.kept
  rw [hplays.role] at hrole
  cases hrole
  obtain ⟨hplays', hhas, hpipes⟩ := Machine.plays_onEvent (.message m) hplays
  have hkeeps := Service.keeps_hear hexchange.service hhear
  obtain ⟨-, rfl⟩ := Service.hear?_eq_some hhear
  refine h.of_worker ⟨_, _, hexchange'⟩ rfl rfl rfl rfl rfl (List.prefix_refl _) ?_ ?_
    (h.piped.same rfl rfl (Nat.le_of_eq (congrArg List.length hpipes.symm)))
  · intro owned howned
    exact hhas x.root owned h.apart howned
  · refine ⟨_, config, hplays', hconfig, ?_, hkeeps⟩
    simp only
    rw [hloop]
    rfl

theorem carries_of_fits {job : Handle} {ends : Machine.NewChannel} (hfits : fits ends = true) :
    Service.Carries (Machine.replyOf job ends) (ends.receive, ends.send) := by
  unfold fits at hfits
  rw [Bool.and_eq_true, beq_iff_eq, beq_iff_eq] at hfits
  exact hfits

/-- A new job gets two pipes of its own, and the worker keeps its own ends of them. -/
theorem sound_make (h : x.Sound parent root worker) (hmove : x.next? .make = some x') :
    x'.Sound parent root worker := by
  obtain ⟨r, request, config, hrole, hconfig, started, exchange, hmove⟩ := next?_make_eq_some hmove
  obtain ⟨r', -, hplays, -, hloop, hkeeps⟩ := h.kept
  rw [hplays.role] at hrole
  cases hrole
  obtain ⟨tail, back, hexchange⟩ := h.exchange
  rcases hmove with ⟨e, hspawn, hnext, rfl⟩ | ⟨job, ends, hspawn, hfits, hnext, rfl⟩
  · obtain ⟨tail', back', hexchange'⟩ := Exchange.sound_next hexchange hnext
    obtain ⟨hservice, hdesk⟩ := worker_eq_some hnext
    obtain ⟨hplays', hhas, hpipes⟩ := Machine.plays_startJob_error hplays hspawn
    have hsignal : ∀ signal, Service.Move.make (.error (.process e)) ≠ .signal signal := nofun
    have hmake : ∀ result, Service.Move.make (.error (.process e)) ≠ .make (.ok result) := nofun
    have hkeeps' := Service.keeps_next hexchange.service hkeeps hsignal hmake hservice
    obtain ⟨request', -, -, hservice'⟩ := Service.next?_make_eq_some hservice
    refine h.of_worker ⟨_, _, hexchange'⟩ hdesk rfl rfl rfl rfl (List.prefix_refl _) ?_ ?_
      (h.piped.same rfl (Service.made_of_next? hmake hservice) hpipes)
    · intro owned howned
      exact hhas x.root owned h.apart howned
    · refine ⟨_, config, hplays', hconfig, ?_, hkeeps'⟩
      simp only
      rw [hservice', hloop]
  · obtain ⟨tail', back', hexchange'⟩ := Exchange.sound_next hexchange hnext
    obtain ⟨hservice, hdesk⟩ := worker_eq_some hnext
    obtain ⟨hplays', hhas, hpipes, -⟩ := Machine.plays_startJob_ok hplays hspawn
    have hkeeps' := Service.keeps_make hexchange.service (carries_of_fits hfits) hservice
    obtain ⟨request', -, -, hservice'⟩ := Service.next?_make_eq_some hservice
    have hmade : exchange.service.made.length = x.exchange.service.made.length + 1 := by
      rw [hservice', List.length_append]
      rfl
    refine h.of_worker ⟨_, _, hexchange'⟩ hdesk rfl rfl rfl rfl (List.prefix_append _ _) ?_ ?_
      (h.piped.snoc rfl hmade hpipes)
    · intro owned howned
      exact hhas x.root owned h.apart howned
    · refine ⟨{ r with
        jobs := r.jobs ++ [job]
        handoff := some (ends.receive, ends.send)
        loop := r.loop.onStarted (.ok (Machine.replyOf job ends)) }, config, ?_, hconfig, ?_,
        hkeeps'⟩
      · simp only [List.getLast?_concat]
        exact hplays'
      · simp only
        rw [hservice', hloop]

/-! ## All moves -/

theorem sound_down (h : x.Sound parent root worker) {carry : Link.Carry}
    (hmove : x.next? (.down carry) = some x') : x'.Sound parent root worker := by
  obtain ⟨exchange, hnext, rfl⟩ := Option.map_eq_some_iff.mp hmove
  obtain ⟨tail, back, hexchange⟩ := h.exchange
  obtain ⟨tail', back', hexchange'⟩ := Exchange.sound_next hexchange hnext
  obtain ⟨down, -, rfl⟩ := Option.map_eq_some_iff.mp hnext
  exact h.of_worker ⟨_, _, hexchange'⟩ rfl rfl rfl rfl rfl (List.prefix_refl _)
    (fun _ hhas => hhas) h.kept (h.piped.same rfl rfl (Nat.le_refl _))

theorem sound_up (h : x.Sound parent root worker) {carry : Link.Carry}
    (hmove : x.next? (.up carry) = some x') : x'.Sound parent root worker := by
  obtain ⟨exchange, hnext, rfl⟩ := Option.map_eq_some_iff.mp hmove
  obtain ⟨tail, back, hexchange⟩ := h.exchange
  obtain ⟨tail', back', hexchange'⟩ := Exchange.sound_next hexchange hnext
  obtain ⟨up, hcarry, rfl⟩ := Option.map_eq_some_iff.mp hnext
  obtain ⟨-, hline⟩ := hexchange.up.carry hcarry
  obtain ⟨r, config, hplays, hconfig, hloop, hkeeps⟩ := h.kept
  refine h.of_worker ⟨_, _, hexchange'⟩ rfl rfl rfl rfl rfl (List.prefix_refl _)
    (fun _ hhas => hhas) ⟨r, config, hplays, hconfig, hloop, ?_⟩
    (h.piped.same rfl rfl (Nat.le_refl _))
  simp only
  rw [hline]
  exact hkeeps

theorem sound_next {move : Move} (h : x.Sound parent root worker) (hmove : x.next? move = some x') :
    x'.Sound parent root worker := by
  cases move with
  | root move => exact sound_root h hmove
  | receive => exact sound_receive h hmove
  | fetch => exact sound_fetch h hmove
  | connect => exact sound_connect h hmove
  | greet => exact sound_greet h hmove
  | letGo i => exact sound_letGo h hmove
  | worker move => exact sound_worker h hmove
  | make => exact sound_make h hmove
  | hear => exact sound_hear h hmove
  | down carry => exact sound_down h hmove
  | up carry => exact sound_up h hmove

/-- What others do is not seen in what the two processes hold. -/
theorem sound_others (h : x.Sound parent root worker) {m : Machine} (hothers : x.Undisturbed m) :
    ({ x with machine := m } : Pickup).Sound parent root worker := by
  obtain ⟨pipe, hhand⟩ := h.hand
  obtain ⟨r, config, hplays, hconfig, hloop, hkeeps⟩ := h.kept
  obtain ⟨r', hrole, hconfig', hloop', hhandoff⟩ := hothers.role r hplays.role
  refine ⟨h.same, h.exchange, h.latest, h.apart, ⟨pipe, ?_⟩, ?_,
    h.piped.same rfl rfl hothers.pipes⟩
  · refine ⟨⟨hothers.there, hhand.has.holds.of_same ?_⟩, hhand.copies, hhand.mine, hhand.returned,
      hhand.calls⟩
    have hcopies := hhand.copies.trans_le (copies_le x.exchange.desk)
    rw [List.map_append, List.map_fst_zip hcopies]
    intro n hn
    exact hothers.root n (List.mem_append.mpr (List.mem_append.mp hn).symm)
  · refine ⟨r', config, ⟨hothers.alive.trans hplays.alive, hrole, ?_⟩, hconfig'.trans hconfig,
      hloop'.trans hloop, hhandoff ▸ hkeeps⟩
    rw [hhandoff]
    refine hplays.holds.of_same ?_
    intro n hn
    cases hends : r.handoff with
    | none =>
      rw [hends] at hn
      cases hn
    | some ends =>
      rw [hends] at hn
      exact hothers.worker r ends.1 ends.2 hplays.role hends n hn

theorem sound_step (h : x.Sound parent root worker) (hstep : Step x x') :
    x'.Sound parent root worker := by
  cases hstep with
  | move hmove => exact sound_next h hmove
  | others hothers => exact sound_others h hothers

/-- The invariant carries over a whole run, by induction on its steps. -/
theorem sound_run (h : x.Sound parent root worker) (hrun : Relation.ReflTransGen Step x x') :
    x'.Sound parent root worker := by
  induction hrun with
  | refl => exact h
  | tail _ hstep ih => exact sound_step ih hstep

/-! ## The law -/

/-- The job that was started for this call's request: what was replied about it, and the first of
its two pipes. -/
def Owns (x : Pickup) (hd : Caller) (reply : StartResult) (pipe : Nat) : Prop :=
  ∃ k, hd.place = some k ∧ x.exchange.service.made[k]? = some (⟨hd.identity⟩, reply) ∧
    x.opened[k]? = some pipe

/-- The worker keeps its ends of these pipes, under the numbers of the reply. -/
def Offers (x : Pickup) (reply : StartResult) (pipe : Nat) : Prop :=
  ∃ r ends, x.machine.roleOf? x.worker = some r ∧ r.handoff = some ends ∧
    Service.Carries reply ends ∧
    (x.machine.fdsOf x.worker).file? reply.readFd.toInt = some (.readEnd pipe) ∧
    (x.machine.fdsOf x.worker).file? reply.writeFd.toInt = some (.writeEnd (pipe + 1))

theorem Sound.offers (h : x.Sound parent root worker) {hd : Caller} {reply : StartResult}
    (hholder : x.exchange.desk.holder = some hd) (hreply : hd.reply? = some reply) :
    ∃ pipe, x.Owns hd reply pipe ∧ x.Offers reply pipe := by
  obtain ⟨k, pipe, r, receive, send, hplace, hpipe, hmade, hrole, hends, hcarries, hplays⟩ :=
    h.kept_for hholder hreply
  refine ⟨pipe, ⟨k, hplace, hmade, hpipe⟩, r, _, hrole, hends, hcarries, ?_, ?_⟩
  · rw [hcarries.1]
    exact hplays.holds.2 receive _ (by simp [Machine.parentEnds])
  · rw [hcarries.2]
    exact hplays.holds.2 send _ (by simp [Machine.parentEnds])

theorem Sound.copied (h : x.Sound parent root worker) {hd : Caller} {number : Int32}
    (hholder : x.exchange.desk.holder = some hd)
    (hrequest : hd.call.request? = some (.fetch number)) :
    ∃ copy copied file, x.machine.fetch x.root x.worker number.toInt = (.ok copy, copied) ∧
      (x.machine.fdsOf x.worker).file? number.toInt = some file ∧
      (copied.fdsOf x.root).file? copy = some file := by
  obtain ⟨k, pipe, file, copy, copied, -, -, hnext, hfile, hfetch, hrewired⟩ :=
    h.fetch hholder hrequest
  obtain ⟨pipe', hhand⟩ := h.hand
  refine ⟨copy, copied, file, hfetch, hfile, (hrewired.has hhand.has).holds.2 copy file ?_⟩
  refine List.mem_append_right _ (List.mem_of_getElem? (i := x.fetched.length) ?_)
  rw [List.getElem?_zip_eq_some]
  exact ⟨List.getElem?_concat_length, hnext⟩

/-- A new job has the other ends of the pipes that are opened for it. -/
theorem Sound.opened_of_make (h : x.Sound parent root worker) (hmove : x.next? .make = some x') :
    x'.opened = x.opened ∨
      ∃ request reply pipe,
        x'.exchange.service.made = x.exchange.service.made ++ [(request, reply)] ∧
        x'.opened = x.opened ++ [pipe] ∧
        ∃ c ∈ x'.machine.procs, c.parent = x.worker ∧ reply.pid = Int32.ofNat c.pid ∧
          c.fds.holds (.readEnd (pipe + 1)) = true ∧ c.fds.holds (.writeEnd pipe) = true := by
  obtain ⟨r, request, config, hrole, -, started, exchange, hmove⟩ := next?_make_eq_some hmove
  obtain ⟨r', -, hplays, -⟩ := h.kept
  rw [hplays.role] at hrole
  cases hrole
  rcases hmove with ⟨e, -, -, rfl⟩ | ⟨job, ends, hspawn, -, hnext, rfl⟩
  · exact Or.inl rfl
  · obtain ⟨hservice, -⟩ := worker_eq_some hnext
    obtain ⟨request', -, -, hservice'⟩ := Service.next?_make_eq_some hservice
    obtain ⟨-, -, -, c, hc, hpid, hparent, hreceive, hsend⟩ :=
      Machine.plays_startJob_ok hplays hspawn
    refine Or.inr ⟨request', Machine.replyOf job ends, _, ?_, rfl, c, hc, hparent, ?_, hreceive,
      hsend⟩
    · simp only
      rw [hservice']
      rfl
    · rw [hpid]
      rfl

theorem Sound.owns (h : x.Sound parent root worker) {j : Returned} (hj : j ∈ x.returned) :
    ∃ reply, j.caller.reply? = some reply ∧ x.Owns j.caller reply j.pipe := by
  obtain ⟨pipe, hhand⟩ := h.hand
  obtain ⟨tail, back, hexchange⟩ := h.exchange
  obtain ⟨k, hplace, hpipe⟩ := hhand.returned j hj
  have hcaller := List.mem_map_of_mem (f := Returned.caller) hj
  rw [hhand.calls, List.mem_filter] at hcaller
  obtain ⟨hdone, hreturned⟩ := hcaller
  obtain ⟨reply, hreply⟩ := Option.isSome_iff_exists.mp hreturned
  obtain ⟨k', hplace', hidentity, hused⟩ := hexchange.desk.owns (Or.inr hdone) hreply
  rw [hplace] at hplace'
  cases hplace'
  obtain ⟨identity, hidentity', hmade⟩ := hexchange.made_of_used hused
  rw [hidentity] at hidentity'
  cases hidentity'
  exact ⟨reply, hreply, k, hplace, hmade, hpipe⟩

/-- Whatever happens, whichever jobs the system lets the worker start, and as long as the worker's
loop goes on: from when a call has its reply until it is over, the worker keeps the ends of the very
job that it started for that call, under the numbers of the reply. Copying them gives the call the
same ends, and the jobs that calls have returned are each connected with the two pipes of their own
job, which no other job has. -/
theorem every_job_is_connected_with_its_own_pipes {machine : Machine}
    (hready : Ready machine root worker)
    (hrun : Relation.ReflTransGen Step (start machine root worker parent) x) :
    (x.root = root ∧ x.worker = worker) ∧
    (∀ hd reply, x.exchange.desk.holder = some hd → hd.reply? = some reply →
      ∃ pipe, x.Owns hd reply pipe ∧ x.Offers reply pipe) ∧
    (∀ hd number, x.exchange.desk.holder = some hd → hd.call.request? = some (.fetch number) →
      ∃ copy copied file, x.machine.fetch x.root x.worker number.toInt = (.ok copy, copied) ∧
        (x.machine.fdsOf x.worker).file? number.toInt = some file ∧
        (copied.fdsOf x.root).file? copy = some file) ∧
    (x.returned.map Returned.caller = x.exchange.desk.done.filter fun hd => hd.reply?.isSome) ∧
    (∀ j ∈ x.returned, (∃ reply, j.caller.reply? = some reply ∧ x.Owns j.caller reply j.pipe) ∧
      ∀ n file, (n, file) ∈ j.files → (x.machine.fdsOf x.root).file? n = some file) ∧
    (x.opened.length = x.exchange.service.made.length ∧
      x.opened.Pairwise fun a b => a + 1 < b) ∧
    ∀ x', x.next? .make = some x' → x'.opened = x.opened ∨
      ∃ request reply pipe,
        x'.exchange.service.made = x.exchange.service.made ++ [(request, reply)] ∧
        x'.opened = x.opened ++ [pipe] ∧
        ∃ c ∈ x'.machine.procs, c.parent = x.worker ∧ reply.pid = Int32.ofNat c.pid ∧
          c.fds.holds (.readEnd (pipe + 1)) = true ∧ c.fds.holds (.writeEnd pipe) = true := by
  have hsound := sound_run (sound_start hready) hrun
  obtain ⟨pipe, hhand⟩ := hsound.hand
  refine ⟨hsound.same, ?_, ?_, hhand.calls, ?_, ⟨hsound.piped.made, hsound.piped.apart⟩, ?_⟩
  · intro hd reply hholder hreply
    exact hsound.offers hholder hreply
  · intro hd number hholder hrequest
    exact hsound.copied hholder hrequest
  · intro j hj
    refine ⟨hsound.owns hj, ?_⟩
    intro n file hfile
    exact hhand.has.holds.2 n file (List.mem_append_left _ (List.mem_flatMap.mpr ⟨j, hj, hfile⟩))
  · intro x' hmove
    exact hsound.opened_of_make hmove

/-! ## Two jobs in a row -/

/-- What a list of moves leads to, when nothing else happens. -/
def run? (x : Pickup) : List Move → Option Pickup
  | [] => some x
  | move :: moves => (x.next? move).bind fun x' => x'.run? moves

theorem steps_of_run? {moves : List Move} (hrun : x.run? moves = some x') :
    Relation.ReflTransGen Step x x' := by
  induction moves generalizing x with
  | nil =>
    cases hrun
    exact .refl
  | cons move moves ih =>
    obtain ⟨x₁, hmove, hrun⟩ := Option.bind_eq_some_iff.mp hrun
    exact .head (.move hmove) (ih hrun)

/-- A root and its worker, which has made its channel. -/
def pair : Machine :=
  let (_, m) := (Machine.empty .obliging ⟨[]⟩ .role []).addOrphan .standard .outside
  (m.addOrphan .standard (.role { RoleRun.start .worker ⟨0, 1⟩ (.ok (.initial 0 0)) with
    startUp := .started })).2

/-- The worker takes a message with a payload of `n` bytes. -/
def hearing (n : Nat) : List Move :=
  [.down (.read 5), .down (.read n), .down .deliver, .hear]

/-- A call from its beginning until it returns its job; the request has a payload of `n` bytes. -/
def calling (identity : JobIdentity) (n : Nat) : List Move :=
  List.flatten [
    [.root (.call identity), .root (.grant 0), .root .post, .root (.write (.took 5)),
      .root (.write (.took n))],
    hearing n,
    [.make, .worker .post, .worker (.write (.took 5)), .worker (.write (.took 25)), .up (.read 5),
      .up (.read 25), .up .deliver, .receive, .fetch, .fetch, .connect, .greet]]

/-- The worker becomes root, and is asked for a job that has a root of its own and for one that
shares its ids. -/
def twoJobs : List Move :=
  List.flatten [hearing 9, [.worker (.assume (.ok ()))], calling .mapRoot 19, calling .shared 17]

theorem ready_pair : Ready pair 2 3 where
  apart := by decide
  root := ⟨_, rfl⟩
  worker :=
    ⟨_, .initial 0 0, Machine.plays_of_proc rfl rfl rfl (FdTable.holds_nil _), rfl, rfl, rfl⟩

/-- Both jobs are reported under the same numbers, and each is connected with its own pipes. -/
theorem numbers_are_used_again_for_the_next_job :
    ∃ x, Relation.ReflTransGen Step (start pair 2 3 7) x ∧
      x.exchange.service.made.map Prod.snd = [⟨3, 6, 4⟩, ⟨3, 6, 5⟩] ∧
      (x.machine.fdsOf 2).file? 3 = some (.writeEnd 1) ∧
      (x.machine.fdsOf 2).file? 4 = some (.readEnd 0) ∧
      (x.machine.fdsOf 2).file? 5 = some (.writeEnd 5) ∧
      (x.machine.fdsOf 2).file? 6 = some (.readEnd 4) := by
  have hrun : ((start pair 2 3 7).run? twoJobs).map (fun x =>
      (x.exchange.service.made.map Prod.snd, x.returned.map Returned.files)) =
      some ([⟨3, 6, 4⟩, ⟨3, 6, 5⟩],
        [[(3, .writeEnd 1), (4, .readEnd 0)], [(5, .writeEnd 5), (6, .readEnd 4)]]) := by
    decide +kernel
  obtain ⟨x, hx, hfound⟩ := Option.map_eq_some_iff.mp hrun
  obtain ⟨hmade, hfiles⟩ := Prod.mk.injEq .. ▸ hfound
  obtain ⟨⟨hroot, -⟩, -, -, -, hreturned, -⟩ :=
    every_job_is_connected_with_its_own_pipes ready_pair (steps_of_run? hx)
  have hstands : ∀ files ∈ x.returned.map Returned.files, ∀ entry ∈ files,
      (x.machine.fdsOf 2).file? entry.1 = some entry.2 := by
    intro files hmem entry hentry
    obtain ⟨j, hj, rfl⟩ := List.mem_map.mp hmem
    rw [← hroot]
    exact (hreturned j hj).2 entry.1 entry.2 hentry
  rw [hfiles] at hstands
  refine ⟨x, steps_of_run? hx, hmade, ?_, ?_, ?_, ?_⟩
  · exact hstands _ List.mem_cons_self (3, .writeEnd 1) List.mem_cons_self
  · exact hstands _ List.mem_cons_self (4, .readEnd 0) (List.mem_cons_of_mem _ List.mem_cons_self)
  · exact hstands _ (List.mem_cons_of_mem _ List.mem_cons_self) (5, .writeEnd 5) List.mem_cons_self
  · exact hstands _ (List.mem_cons_of_mem _ List.mem_cons_self) (6, .readEnd 4)
      (List.mem_cons_of_mem _ List.mem_cons_self)

end ProcessTree.Pickup
