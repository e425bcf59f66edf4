-- The loop of a role over any row of events, whatever comes of the things it tries because of
-- them. It takes the events up to the first that ends it, and that one says how it ends.
import ProcessTree.Proofs.Worker.Handoff

namespace ProcessTree

open Machine (NewChannel replyOf)

/-! ## Events -/

/-- An event that ends a loop without an error. -/
def LoopEvent.isGraceful : LoopEvent → Bool
  | .message .quit | .signal _ | .failed .channelClosed => true
  | _ => false

/-- An event, with what comes of the things that a loop may try because of it. -/
structure Occasion where
  event : LoopEvent
  /-- Becoming root. -/
  assume : Except Errno Unit
  /-- Starting a job. -/
  start : Except ReentryError (Handle × NewChannel)
  /-- Sending a reply. -/
  reply : Except ChannelError Unit

namespace Occasion

def isBegin (o : Occasion) : Bool :=
  match o.event with
  | .message (.begin _) => true
  | _ => false

/-- How an event ends the loop of a role that has taken others before, if it does. -/
def ending? (role : Role) (before : List Occasion) (o : Occasion) :
    Option (Except ReentryError Unit) :=
  match o.event with
  | .message .quit | .signal _ | .failed .channelClosed => some (.ok ())
  | .failed e => some (.error (.channel e))
  | .message (.begin _) =>
    if (role = .job ∨ role = .worker) ∧ before.any isBegin = false then
      match o.assume with
      | .ok () => none
      | .error e => some (.error (.privilege e))
    else some (.error (.unexpectedMessage role Kind.begin))
  | .message (.start _) =>
    if role = .worker then
      match o.start, o.reply with
      | .error e, _ => some (.error e)
      | .ok _, .error e => some (.error (.channel e))
      | .ok _, .ok () => none
    else some (.error (.unexpectedMessage role Kind.start))

/-- The job that a worker starts because of an event. -/
def job? (role : Role) (o : Occasion) : Option (Handle × NewChannel) :=
  match role, o.event with
  | .worker, .message (.start _) => o.start.toOption
  | _, _ => none

/-- None of these ends the loop of a role. -/
def Calm (role : Role) (os : List Occasion) : Prop :=
  ∀ before o after, os = before ++ o :: after → ending? role before o = none

theorem calm_nil (role : Role) : Calm role [] := by
  intro before o after h
  simp at h

theorem Calm.snoc {role : Role} {os : List Occasion} {o : Occasion} (h : Calm role os)
    (hlast : ending? role os o = none) : Calm role (os ++ [o]) := by
  intro before o' after hsplit
  rcases List.eq_nil_or_concat' after with rfl | ⟨after, last, rfl⟩
  · obtain ⟨rfl, heq⟩ := List.append_inj' hsplit rfl
    cases heq
    exact hlast
  · rw [← List.cons_append, ← List.append_assoc] at hsplit
    obtain ⟨hbefore, -⟩ := List.append_inj' hsplit rfl
    exact h before o' after hbefore

end Occasion

/-! ## A loop at work -/

/-- What a loop does. -/
inductive LoopDeed where
  | takes (event : LoopEvent)
  | assumes (outcome : Except Errno Unit)
  | starts (request : Start) (outcome : Except ReentryError (Handle × NewChannel))
  | replies (result : StartResult) (outcome : Except ChannelError Unit)

namespace LoopDeed

def taken? : LoopDeed → Option LoopEvent
  | .takes event => some event
  | _ => none

def assumed? : LoopDeed → Option (Except Errno Unit)
  | .assumes outcome => some outcome
  | _ => none

/-- The result that is sent, or tried to be sent. -/
def replied? : LoopDeed → Option StartResult
  | .replies result _ => some result
  | _ => none

end LoopDeed

/-- A loop with what it took and did so far. -/
structure Shift where
  loop : RoleLoop
  handled : List Occasion
  deeds : List LoopDeed

namespace Shift

open Occasion LoopDeed

/-- A loop before its first event. -/
def start (role : Role) : Shift := ⟨.start role, [], []⟩

def take (s : Shift) (o : Occasion) : Shift where
  loop := s.loop.onEvent o.event
  handled := s.handled ++ [o]
  deeds := s.deeds ++ [.takes o.event]

def assume (s : Shift) (outcome : Except Errno Unit) : Shift :=
  { s with loop := s.loop.onAssumed outcome, deeds := s.deeds ++ [.assumes outcome] }

def startJob (s : Shift) (request : Start)
    (outcome : Except ReentryError (Handle × NewChannel)) : Shift :=
  { s with
    loop := s.loop.onStarted (outcome.map fun (job, ends) => replyOf job ends)
    deeds := s.deeds ++ [.starts request outcome] }

def reply (s : Shift) (result : StartResult) (outcome : Except ChannelError Unit) : Shift :=
  { s with loop := s.loop.onReplied outcome, deeds := s.deeds ++ [.replies result outcome] }

/-- Takes an event, and does what is to be done because of it. -/
def attend (s : Shift) (o : Occasion) : Shift :=
  let taken := s.take o
  match taken.loop.stage with
  | .assuming => taken.assume o.assume
  | .starting request =>
    let started := taken.startJob request o.start
    match started.loop.stage with
    | .replying result => started.reply result o.reply
    | _ => started
  | _ => taken

/-- Takes one event after the other while the loop waits for them, and leaves the rest. -/
def serve (s : Shift) : List Occasion → Shift × List Occasion
  | [] => (s, [])
  | o :: rest =>
    match s.loop.stage with
    | .awaiting => (s.attend o).serve rest
    | _ => (s, o :: rest)

theorem serve_cons_of_awaiting {s : Shift} (h : s.loop.stage = .awaiting) (o : Occasion)
    (rest : List Occasion) : s.serve (o :: rest) = (s.attend o).serve rest := by
  simp only [serve, h]

/-- A loop that is over takes nothing more. -/
theorem serve_cons_of_over {s : Shift} (h : s.loop.stage ≠ .awaiting) (o : Occasion)
    (rest : List Occasion) : s.serve (o :: rest) = (s, o :: rest) := by
  unfold serve
  split
  · rename_i hstage
    exact absurd hstage h
  · rfl

/-- Of a loop that an event was taken by, and what it did because of it. -/
def after (s : Shift) (o : Occasion) (loop : RoleLoop) (more : List LoopDeed) : Shift :=
  ⟨loop, s.handled ++ [o], s.deeds ++ .takes o.event :: more⟩

/-- All that a loop that waits can do because of an event. -/
inductive Attended (s : Shift) (o : Occasion) : Shift → Prop
  | graceful (h : o.event.isGraceful = true) : Attended s o (s.after o (s.loop.leave (.ok ())) [])
  | broken {e : ChannelError} (h : o.event = .failed e) (hopen : e ≠ .channelClosed) :
      Attended s o (s.after o (s.loop.leave (.error (.channel e))) [])
  | refusedBegin {body : Begin} (h : o.event = .message (.begin body))
      (htakes : s.loop.takesBegin = false) :
      Attended s o (s.after o (s.loop.refuse (.begin body)) [])
  | refusedStart {body : Start} (h : o.event = .message (.start body))
      (hrole : s.loop.role ≠ .worker) :
      Attended s o (s.after o (s.loop.refuse (.start body)) [])
  | assumed {body : Begin} (h : o.event = .message (.begin body))
      (htakes : s.loop.takesBegin = true) (hassume : o.assume = .ok ()) :
      Attended s o (s.after o { s.loop with privileged := true } [.assumes (.ok ())])
  | unassumed {body : Begin} {e : Errno} (h : o.event = .message (.begin body))
      (htakes : s.loop.takesBegin = true) (hassume : o.assume = .error e) :
      Attended s o (s.after o (s.loop.leave (.error (.privilege e))) [.assumes (.error e)])
  | unstarted {body : Start} {e : ReentryError} (h : o.event = .message (.start body))
      (hrole : s.loop.role = .worker) (hstart : o.start = .error e) :
      Attended s o (s.after o (s.loop.leave (.error e)) [.starts body (.error e)])
  | unsent {body : Start} {job : Handle} {ends : NewChannel} {e : ChannelError}
      (h : o.event = .message (.start body)) (hrole : s.loop.role = .worker)
      (hstart : o.start = .ok (job, ends)) (hreply : o.reply = .error e) :
      Attended s o (s.after o (s.loop.leave (.error (.channel e)))
        [.starts body (.ok (job, ends)), .replies (replyOf job ends) (.error e)])
  | served {body : Start} {job : Handle} {ends : NewChannel}
      (h : o.event = .message (.start body)) (hrole : s.loop.role = .worker)
      (hstart : o.start = .ok (job, ends)) (hreply : o.reply = .ok ()) :
      Attended s o (s.after o s.loop
        [.starts body (.ok (job, ends)), .replies (replyOf job ends) (.ok ())])

variable {s : Shift} {o : Occasion} {role : Role}

/-- A loop that leaves is not at anything it could go on with. -/
theorem stage_leave (l : RoleLoop) (result : Except ReentryError Unit) :
    (l.leave result).stage = .leaving result ∨ (l.leave result).stage = .ended result := by
  unfold RoleLoop.leave
  by_cases hrole : l.role = .worker
  · exact .inl (if_pos hrole)
  · exact .inr (if_neg hrole)

theorem attend_of_leave (result : Except ReentryError Unit)
    (h : s.loop.onEvent o.event = s.loop.leave result) :
    s.attend o = s.after o (s.loop.leave result) [] := by
  have htaken : s.take o = s.after o (s.loop.leave result) [] := by
    rw [← h]
    rfl
  have hstage : (s.take o).loop.stage = .leaving result ∨
      (s.take o).loop.stage = .ended result := by
    rw [htaken]
    exact stage_leave s.loop result
  unfold attend
  rcases hstage with hstage | hstage <;> simp only [hstage] <;> exact htaken

/-- Another stage makes no difference to how a loop leaves. -/
theorem leave_of_stage (l : RoleLoop) (stage : LoopStage) (result : Except ReentryError Unit) :
    { l with stage }.leave result = l.leave result := rfl

theorem attended_begin {body : Begin} (hwaits : s.loop.stage = .awaiting)
    (h : o.event = .message (.begin body)) : s.Attended o (s.attend o) := by
  cases htakes : s.loop.takesBegin with
  | false =>
    rw [attend_of_leave (.error (.unexpectedMessage s.loop.role Kind.begin))]
    · exact .refusedBegin h htakes
    · simp only [h, RoleLoop.onEvent, htakes]
      rfl
  | true =>
    have hloop : (s.take o).loop = { s.loop with stage := .assuming } := by
      simp only [take, h, RoleLoop.onEvent, htakes, if_true]
    have hattend : s.attend o = (s.take o).assume o.assume := by
      unfold attend
      simp only [hloop]
    rw [hattend]
    cases hassume : o.assume with
    | ok u =>
      have hafter : (s.take o).assume (.ok u) =
          s.after o { s.loop with privileged := true } [.assumes (.ok ())] := by
        unfold assume
        rw [hloop]
        simp [after, take, RoleLoop.onAssumed, hwaits]
      rw [hafter]
      exact .assumed h htakes hassume
    | error e =>
      have hafter : (s.take o).assume (.error e) =
          s.after o (s.loop.leave (.error (.privilege e))) [.assumes (.error e)] := by
        unfold assume
        rw [hloop]
        simp [after, take, RoleLoop.onAssumed, leave_of_stage]
      rw [hafter]
      exact .unassumed h htakes hassume

theorem attended_start {body : Start} (hwaits : s.loop.stage = .awaiting)
    (h : o.event = .message (.start body)) : s.Attended o (s.attend o) := by
  by_cases hrole : s.loop.role = .worker
  · have hloop : (s.take o).loop = { s.loop with stage := .starting body } := by
      simp only [take, h, RoleLoop.onEvent, if_pos hrole]
    cases hstart : o.start with
    | error e =>
      have hafter : (s.take o).startJob body (.error e) =
          s.after o (s.loop.leave (.error e)) [.starts body (.error e)] := by
        unfold startJob
        rw [hloop]
        simp [after, take, Except.map, RoleLoop.onStarted, leave_of_stage]
      have hattend : s.attend o = (s.take o).startJob body (.error e) := by
        unfold attend
        simp only [hloop, hstart, hafter, after]
        rcases stage_leave s.loop (.error e) with hstage | hstage <;> simp only [hstage]
      rw [hattend, hafter]
      exact .unstarted h hrole hstart
    | ok started =>
      obtain ⟨job, ends⟩ := started
      have hreplying : ((s.take o).startJob body (.ok (job, ends))).loop =
          { s.loop with stage := .replying (replyOf job ends) } := by
        unfold startJob
        rw [hloop]
        rfl
      have hattend : s.attend o =
          ((s.take o).startJob body (.ok (job, ends))).reply (replyOf job ends) o.reply := by
        unfold attend
        simp only [hloop, hstart, hreplying]
      rw [hattend]
      cases hreply : o.reply with
      | ok u =>
        have hafter : ((s.take o).startJob body (.ok (job, ends))).reply (replyOf job ends)
            (.ok u) = s.after o s.loop
              [.starts body (.ok (job, ends)), .replies (replyOf job ends) (.ok ())] := by
          unfold reply
          rw [hreplying]
          simp [after, take, startJob, RoleLoop.onReplied, ← hwaits]
        rw [hafter]
        exact .served h hrole hstart hreply
      | error e =>
        have hafter : ((s.take o).startJob body (.ok (job, ends))).reply (replyOf job ends)
            (.error e) = s.after o (s.loop.leave (.error (.channel e)))
              [.starts body (.ok (job, ends)), .replies (replyOf job ends) (.error e)] := by
          unfold reply
          rw [hreplying]
          simp [after, take, startJob, RoleLoop.onReplied, leave_of_stage]
        rw [hafter]
        exact .unsent h hrole hstart hreply
  · rw [attend_of_leave (.error (.unexpectedMessage s.loop.role Kind.start))]
    · exact .refusedStart h hrole
    · simp only [h, RoleLoop.onEvent, if_neg hrole]
      rfl

theorem attended (hwaits : s.loop.stage = .awaiting) : s.Attended o (s.attend o) := by
  cases hevent : o.event with
  | signal signal =>
    rw [attend_of_leave (.ok ()) (by rw [hevent]; rfl)]
    exact .graceful (by rw [hevent]; rfl)
  | failed e =>
    by_cases hclosed : e = .channelClosed
    · rw [attend_of_leave (.ok ()) (by rw [hevent, hclosed]; rfl)]
      exact .graceful (by rw [hevent, hclosed]; rfl)
    · rw [attend_of_leave (.error (.channel e))]
      · exact .broken hevent hclosed
      · rw [hevent]
        cases e <;> first | rfl | exact absurd rfl hclosed
  | message m =>
    cases m with
    | quit =>
      rw [attend_of_leave (.ok ()) (by rw [hevent]; rfl)]
      exact .graceful (by rw [hevent]; rfl)
    | begin body => exact attended_begin hwaits hevent
    | start body => exact attended_start hwaits hevent

/-! ## The invariant -/

/-- Nothing has ended the loop, and it waits. -/
structure Waits (role : Role) (s : Shift) : Prop where
  stage : s.loop.stage = .awaiting
  calm : Calm role s.handled
  privileged : s.loop.privileged = s.handled.any isBegin

/-- The last event has ended the loop, with this result once its jobs are closed. -/
def Over (role : Role) (s : Shift) : Prop :=
  ∃ before o result, s.handled = before ++ [o] ∧ Calm role before ∧
    ending? role before o = some result ∧ s.loop.stage ≠ .awaiting ∧
    s.loop.onJobsClosed.stage = .ended result

/-- What the deeds of a loop say. -/
structure Told (role : Role) (s : Shift) : Prop where
  taken : s.deeds.filterMap taken? = s.handled.map Occasion.event
  once : (s.deeds.filterMap assumed?).length ≤ 1
  fresh : s.loop.stage = .awaiting → s.loop.privileged = false → s.deeds.filterMap assumed? = []
  privileged : s.loop.privileged = true ↔ Except.ok () ∈ s.deeds.filterMap assumed?
  replied : s.deeds.filterMap replied? =
    (s.handled.filterMap (job? role)).map fun (job, ends) => replyOf job ends

structure Sound (role : Role) (s : Shift) : Prop where
  same : s.loop.role = role
  stands : s.Waits role ∨ s.Over role
  told : s.Told role

theorem sound_start (role : Role) : (start role).Sound role where
  same := rfl
  stands := .inl ⟨rfl, calm_nil role, rfl⟩
  told := by
    refine ⟨rfl, Nat.zero_le 1, fun _ _ => rfl, ?_, rfl⟩
    simp [start, RoleLoop.start]

theorem Sound.waits (h : s.Sound role) (hwaits : s.loop.stage = .awaiting) : s.Waits role := by
  rcases h.stands with h | ⟨-, -, -, -, -, -, hover, -⟩
  · exact h
  · exact absurd hwaits hover

theorem takesBegin_eq_true_iff (l : RoleLoop) :
    l.takesBegin = true ↔ (l.role = .job ∨ l.role = .worker) ∧ l.privileged = false := by
  simp [RoleLoop.takesBegin]

theorem Waits.over (h : s.Waits role) {result : Except ReentryError Unit}
    (hending : ending? role s.handled o = some result) (more : List LoopDeed) :
    (s.after o (s.loop.leave result) more).Over role := by
  refine ⟨s.handled, o, result, rfl, h.calm, hending, ?_, ?_⟩
  · rcases stage_leave s.loop result with hstage | hstage <;> simp [after, hstage]
  · unfold RoleLoop.onJobsClosed after
    rcases stage_leave s.loop result with hstage | hstage <;> simp [hstage]

theorem Waits.going (h : s.Waits role) {loop : RoleLoop} {more : List LoopDeed}
    (hending : ending? role s.handled o = none) (hstage : loop.stage = .awaiting)
    (hprivileged : loop.privileged = (s.handled ++ [o]).any isBegin) :
    (s.after o loop more).Waits role where
  stage := hstage
  calm := h.calm.snoc hending
  privileged := hprivileged

/-- An event ends the loop as it should, or the loop goes on. -/
theorem stands_attended (hrole : s.loop.role = role) (h : s.Waits role) {s' : Shift}
    (hattended : s.Attended o s') : s'.Waits role ∨ s'.Over role := by
  subst hrole
  have htakes := takesBegin_eq_true_iff s.loop
  rw [h.privileged] at htakes
  cases hattended with
  | graceful hevent =>
    refine .inr (h.over ?_ [])
    unfold LoopEvent.isGraceful at hevent
    unfold ending?
    split at hevent
    · rename_i hquit
      rw [hquit]
    · rename_i hsignal
      rw [hsignal]
    · rename_i hclosed
      rw [hclosed]
    · cases hevent
  | @broken e hevent hopen =>
    refine .inr (h.over ?_ [])
    unfold ending?
    rw [hevent]
    cases e <;> first | rfl | exact absurd rfl hopen
  | refusedBegin hevent hrefused =>
    refine .inr (h.over ?_ [])
    have hnot := Bool.eq_false_iff.mp hrefused
    simp only [ending?, hevent, if_neg fun hif => hnot (htakes.mpr hif)]
    rfl
  | refusedStart hevent hidle =>
    refine .inr (h.over ?_ [])
    simp only [ending?, hevent, if_neg hidle]
    rfl
  | assumed hevent hbegin hassume =>
    refine .inl (h.going ?_ h.stage ?_)
    · simp only [ending?, hevent, if_pos (htakes.mp hbegin), hassume]
    · simp [isBegin, hevent]
  | unassumed hevent hbegin hassume =>
    refine .inr (h.over ?_ _)
    simp only [ending?, hevent, if_pos (htakes.mp hbegin), hassume]
  | unstarted hevent hworker hstart =>
    refine .inr (h.over ?_ _)
    simp only [ending?, hevent, if_pos hworker, hstart]
  | unsent hevent hworker hstart hreply =>
    refine .inr (h.over ?_ _)
    simp only [ending?, hevent, if_pos hworker, hstart, hreply]
  | served hevent hworker hstart hreply =>
    refine .inl (h.going ?_ h.stage ?_)
    · simp only [ending?, hevent, if_pos hworker, hstart, hreply]
    · simp [isBegin, hevent, h.privileged]

theorem Attended.same {s' : Shift} (h : s.Attended o s') :
    s'.loop.role = s.loop.role ∧ s'.handled = s.handled ++ [o] ∧ s.deeds <+: s'.deeds := by
  cases h <;> exact ⟨rfl, rfl, List.prefix_append _ _⟩

/-- A loop that leaves is as privileged as it was. -/
theorem privileged_leave (l : RoleLoop) (result : Except ReentryError Unit) :
    (l.leave result).privileged = l.privileged := rfl

/-- No job is started because of an event that is not a start request. -/
theorem job?_eq_none (h : ∀ body, o.event ≠ .message (.start body)) : job? role o = none := by
  unfold job?
  split
  · rename_i body hevent
    exact absurd hevent (h body)
  · rfl

theorem job?_eq_none_of_idle (h : role ≠ .worker) : job? role o = none := by
  unfold job?
  split
  · exact absurd rfl h
  · rfl

theorem job?_of_start (hrole : role = .worker) {body : Start}
    (hevent : o.event = .message (.start body)) : job? role o = o.start.toOption := by
  simp only [job?, hrole, hevent]

theorem taken_after (loop : RoleLoop) (more : List LoopDeed) :
    (s.after o loop more).deeds.filterMap taken? =
      s.deeds.filterMap taken? ++ o.event :: more.filterMap taken? := List.filterMap_append

theorem assumed_after (loop : RoleLoop) (more : List LoopDeed) :
    (s.after o loop more).deeds.filterMap assumed? =
      s.deeds.filterMap assumed? ++ more.filterMap assumed? := List.filterMap_append

theorem replied_after (loop : RoleLoop) (more : List LoopDeed) :
    (s.after o loop more).deeds.filterMap replied? =
      s.deeds.filterMap replied? ++ more.filterMap replied? := List.filterMap_append

theorem handled_after (loop : RoleLoop) (more : List LoopDeed) :
    (s.after o loop more).handled = s.handled ++ [o] := rfl

/-- An event because of which the loop does not try to become root. -/
theorem Told.of_plain (h : s.Told role) {loop : RoleLoop} {more : List LoopDeed}
    (hfresh : loop.stage = .awaiting → s.loop.stage = .awaiting)
    (hprivileged : loop.privileged = s.loop.privileged) (htaken : more.filterMap taken? = [])
    (hassumed : more.filterMap assumed? = [])
    (hreplied : more.filterMap replied? =
      ((job? role o).map fun (job, ends) => replyOf job ends).toList) :
    (s.after o loop more).Told role where
  taken := by rw [taken_after, h.taken, htaken, handled_after, List.map_append, List.map_singleton]
  once := by
    rw [assumed_after, hassumed, List.append_nil]
    exact h.once
  fresh hwaits hplain := by
    rw [assumed_after, hassumed, List.append_nil]
    exact h.fresh (hfresh hwaits) (hprivileged.symm.trans hplain)
  privileged := by
    rw [assumed_after, hassumed, List.append_nil, ← h.privileged, ← hprivileged]
    rfl
  replied := by
    rw [replied_after, h.replied, hreplied, handled_after, List.filterMap_append, List.map_append]
    cases hjob : job? role o <;> simp [hjob]

theorem leave_not_awaiting (l : RoleLoop) (result : Except ReentryError Unit) :
    (l.leave result).stage ≠ .awaiting := by
  rcases stage_leave l result with hstage | hstage <;> simp [hstage]

/-- An event because of which the loop tries to become root, for the first time. -/
theorem Told.of_assumed (h : s.Told role) {body : Begin} (hevent : o.event = .message (.begin body))
    (hwaits : s.loop.stage = .awaiting) (htakes : s.loop.takesBegin = true) {loop : RoleLoop}
    {outcome : Except Errno Unit} (hloop : loop.privileged = true ↔ outcome = .ok ())
    (hstage : loop.privileged = false → loop.stage ≠ .awaiting) :
    (s.after o loop [.assumes outcome]).Told role := by
  have hall : (s.after o loop [.assumes outcome]).deeds.filterMap assumed? = [outcome] := by
    rw [assumed_after, h.fresh hwaits ((takesBegin_eq_true_iff s.loop).mp htakes).2]
    rfl
  refine ⟨?_, ?_, fun hstill hplain => absurd hstill (hstage hplain), ?_, ?_⟩
  · rw [taken_after, h.taken, handled_after, List.map_append]
    rfl
  · rw [hall]
    exact Nat.le_refl 1
  · rw [hall, List.mem_singleton, eq_comm (a := Except.ok ())]
    exact hloop
  · have hjob : job? role o = none := job?_eq_none (by simp [hevent])
    rw [replied_after, h.replied, handled_after, List.filterMap_append,
      List.filterMap_cons_none hjob, List.map_append]
    rfl

theorem told_attended (h : s.Told role) (hrole : s.loop.role = role)
    (hwaits : s.loop.stage = .awaiting) {s' : Shift} (hattended : s.Attended o s') :
    s'.Told role := by
  subst hrole
  have hleft : ∀ {result}, (s.loop.leave result).stage = .awaiting → s.loop.stage = .awaiting :=
    fun hstill => absurd hstill (leave_not_awaiting _ _)
  cases hattended with
  | graceful hevent =>
    refine h.of_plain hleft rfl rfl rfl ?_
    rw [job?_eq_none]
    · rfl
    · intro body hstart
      simp [LoopEvent.isGraceful, hstart] at hevent
  | broken hevent _ | refusedBegin hevent _ =>
    refine h.of_plain hleft rfl rfl rfl ?_
    rw [job?_eq_none (by simp [hevent])]
    rfl
  | refusedStart hevent hidle =>
    refine h.of_plain hleft rfl rfl rfl ?_
    rw [job?_eq_none_of_idle hidle]
    rfl
  | assumed hevent htakes _ => exact h.of_assumed hevent hwaits htakes (by simp) (by simp)
  | unassumed hevent htakes _ =>
    refine h.of_assumed hevent hwaits htakes ?_ fun _ => leave_not_awaiting _ _
    simp [privileged_leave, ((takesBegin_eq_true_iff s.loop).mp htakes).2]
  | unstarted hevent hworker hstart | unsent hevent hworker hstart _ =>
    refine h.of_plain hleft rfl rfl rfl ?_
    rw [job?_of_start hworker hevent, hstart]
    rfl
  | served hevent hworker hstart _ =>
    refine h.of_plain id rfl rfl rfl ?_
    rw [job?_of_start hworker hevent, hstart]
    rfl

theorem sound_attend (h : s.Sound role) (hwaits : s.loop.stage = .awaiting) :
    (s.attend o).Sound role where
  same := (attended hwaits).same.1.trans h.same
  stands := stands_attended h.same (h.waits hwaits) (attended hwaits)
  told := told_attended h.told h.same hwaits (attended hwaits)

/-! ## Many events -/

theorem sound_serve (h : s.Sound role) (os : List Occasion) : (s.serve os).1.Sound role := by
  induction os generalizing s with
  | nil => exact h
  | cons o os ih =>
    by_cases hwaits : s.loop.stage = .awaiting
    · rw [serve_cons_of_awaiting hwaits]
      exact ih (sound_attend h hwaits)
    · rw [serve_cons_of_over hwaits]
      exact h

/-- What a loop has taken and what it has left is what there was, and it leaves nothing while it
waits. -/
theorem handled_serve (s : Shift) (os : List Occasion) :
    (s.serve os).1.handled ++ (s.serve os).2 = s.handled ++ os ∧
      ((s.serve os).1.loop.stage = .awaiting → (s.serve os).2 = []) := by
  induction os generalizing s with
  | nil => exact ⟨rfl, fun _ => rfl⟩
  | cons o os ih =>
    by_cases hwaits : s.loop.stage = .awaiting
    · obtain ⟨hall, hrest⟩ := ih (s.attend o)
      rw [serve_cons_of_awaiting hwaits]
      refine ⟨hall.trans ?_, hrest⟩
      rw [(attended hwaits).same.2.1, List.append_assoc]
      rfl
    · rw [serve_cons_of_over hwaits]
      exact ⟨rfl, fun hstill => absurd hstill hwaits⟩

theorem serve_append (s : Shift) (os more : List Occasion) :
    s.serve (os ++ more) = (s.serve os).1.serve ((s.serve os).2 ++ more) := by
  induction os generalizing s with
  | nil => rfl
  | cons o os ih =>
    by_cases hwaits : s.loop.stage = .awaiting
    · rw [List.cons_append, serve_cons_of_awaiting hwaits, serve_cons_of_awaiting hwaits, ih]
    · rw [serve_cons_of_over hwaits, List.cons_append]

theorem deeds_serve (s : Shift) (os : List Occasion) : s.deeds <+: (s.serve os).1.deeds := by
  induction os generalizing s with
  | nil => exact List.prefix_refl _
  | cons o os ih =>
    by_cases hwaits : s.loop.stage = .awaiting
    · rw [serve_cons_of_awaiting hwaits]
      exact (attended hwaits).same.2.2.trans (ih _)
    · exact ⟨[], by rw [serve_cons_of_over hwaits, List.append_nil]⟩

/-! ## The law -/

/-- An event ends a loop well just when it is quit, a signal or the end of the channel. -/
theorem graceful_iff {before : List Occasion} {result : Except ReentryError Unit}
    (h : ending? role before o = some result) : result = .ok () ↔ o.event.isGraceful = true := by
  unfold ending? at h
  unfold LoopEvent.isGraceful
  cases hevent : o.event with
  | signal signal =>
    rw [hevent] at h
    cases h
    exact ⟨fun _ => rfl, fun _ => rfl⟩
  | failed e =>
    rw [hevent] at h
    cases e <;> cases h <;> simp
  | message m =>
    rw [hevent] at h
    cases m with
    | quit =>
      cases h
      exact ⟨fun _ => rfl, fun _ => rfl⟩
    | begin body =>
      simp only at h
      split at h
      · split at h <;> cases h
        simp
      · cases h
        simp
    | start body =>
      simp only at h
      split at h
      · split at h <;> cases h <;> simp
      · cases h
        simp

/-- A loop takes the events up to the first that ends it and leaves the others, and what that one
ends it with is its result; it ends well just with quit, a signal or the end of its channel. If no
event ends it, it takes them all. It tries to become root once at most, is privileged just when that
went well, and stays so. A worker replies once to each start request that a job was started for,
with that job's number and its own ends of the job's channel; nobody else replies. -/
theorem a_loop_ends_with_the_first_event_that_ends_it (role : Role) (os : List Occasion) :
    ∃ s left, (start role).serve os = (s, left) ∧ os = s.handled ++ left ∧
      s.deeds.filterMap taken? = s.handled.map Occasion.event ∧
      ((s.loop.stage = .awaiting ∧ left = [] ∧ Calm role s.handled) ∨
        ∃ before o result, s.handled = before ++ [o] ∧ Calm role before ∧
          ending? role before o = some result ∧ s.loop.stage ≠ .awaiting ∧
          s.loop.onJobsClosed.stage = .ended result ∧
          (result = .ok () ↔ o.event.isGraceful = true)) ∧
      (s.deeds.filterMap assumed?).length ≤ 1 ∧
      (s.loop.privileged = true ↔ Except.ok () ∈ s.deeds.filterMap assumed?) ∧
      (∀ more, s.loop.privileged = true →
        ((start role).serve (os ++ more)).1.loop.privileged = true) ∧
      s.deeds.filterMap replied? =
        (s.handled.filterMap (job? role)).map fun (job, ends) => replyOf job ends := by
  have h := sound_serve (sound_start role) os
  obtain ⟨hall, hleft⟩ := handled_serve (start role) os
  refine ⟨_, _, rfl, hall.symm, h.told.taken, ?_, h.told.once, h.told.privileged, ?_,
    h.told.replied⟩
  · rcases h.stands with ⟨hstage, hcalm, -⟩ | ⟨before, o, result, hsplit, hcalm, hending, hover⟩
    · exact .inl ⟨hstage, hleft hstage, hcalm⟩
    · exact .inr ⟨before, o, result, hsplit, hcalm, hending, hover.1, hover.2,
        graceful_iff hending⟩
  · -- The longer row of events has all the deeds of the shorter one.
    intro more hprivileged
    have hmore := sound_serve (sound_start role) (os ++ more)
    have hdeeds : ((start role).serve os).1.deeds <+:
        ((start role).serve (os ++ more)).1.deeds := by
      rw [serve_append]
      exact deeds_serve _ _
    rw [hmore.told.privileged]
    exact (hdeeds.filterMap _).subset (h.told.privileged.mp hprivileged)

end Shift

end ProcessTree
