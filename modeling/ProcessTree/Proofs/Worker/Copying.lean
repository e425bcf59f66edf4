-- The root's side of getting a job. The call that has its reply asked last, so
-- the worker has not taken a message since it started that call's job, and what
-- its two numbers stand for are its ends of that job's pipes.
import ProcessTree.Proofs.Worker.Keeping
import ProcessTree.Proofs.Worker.Pickup

namespace ProcessTree.Pickup

/-! ## The invariant -/

/-- How many descriptors a call has copied. -/
def copies (d : Desk) : Nat :=
  match d.holder.map Caller.call with
  | some (.fetchingRead _) => 1
  | some (.connecting _) | some (.greeting _) => 2
  | _ => 0

/-- What a call copies, in that order. -/
def ofPipe (pipe : Nat) : List OpenFile := [.writeEnd (pipe + 1), .readEnd pipe]

/-- The root's side: what the call that has its turn has copied are the ends of its own job's
pipes, and what returned jobs are connected with are those of theirs. -/
structure Hand (x : Pickup) (pipe : Nat) : Prop where
  has : x.machine.Has x.root (x.inHand ++ x.fetched.zip (ofPipe pipe))
  copies : x.fetched.length = copies x.exchange.desk
  mine : x.fetched ≠ [] → ∃ hd k, x.exchange.desk.holder = some hd ∧ hd.place = some k ∧
    x.opened[k]? = some pipe
  returned : ∀ j ∈ x.returned, ∃ k, j.caller.place = some k ∧ x.opened[k]? = some j.pipe
  calls : x.returned.map Returned.caller =
    x.exchange.desk.done.filter fun hd => hd.reply?.isSome

/-- The worker's side: what it keeps for the root are its ends of the last job's pipes. -/
def Kept (x : Pickup) : Prop :=
  ∃ r config, x.machine.Plays x.worker r
      (Machine.keptEnds (x.opened.getLast?.getD 0) r.handoff) ∧
    r.config = .ok config ∧ r.loop = x.exchange.service.loop ∧
    x.exchange.service.Keeps x.exchange.up.line r.handoff

/-- Each job has two pipes of its own. -/
structure Piped (x : Pickup) : Prop where
  apart : x.opened.Pairwise fun a b => a + 1 < b
  made : x.opened.length = x.exchange.service.made.length
  old : ∀ pipe ∈ x.opened, pipe + 1 < x.machine.pipes.length

structure Sound (x : Pickup) (parent : Int32) (root worker : Nat) : Prop where
  same : x.root = root ∧ x.worker = worker
  exchange : ∃ tail back, x.exchange.Sound parent tail back
  latest : x.exchange.desk.Latest
  apart : x.root ≠ x.worker
  hand : ∃ pipe, x.Hand pipe
  kept : x.Kept
  piped : x.Piped

theorem sound_start {m : Machine} {root worker : Nat} {parent : Int32}
    (hready : Ready m root worker) : (start m root worker parent).Sound parent root worker := by
  obtain ⟨r, config, hplays, hconfig, hloop, hhandoff⟩ := hready.worker
  refine ⟨⟨rfl, rfl⟩, ⟨[], [], Exchange.sound_start parent⟩, Desk.latest_start, hready.apart,
    ⟨0, ?_⟩, ?_, ?_⟩
  · exact ⟨⟨hready.root, FdTable.holds_nil _⟩, rfl, fun hne => absurd rfl hne, by simp [start],
      rfl⟩
  · refine ⟨r, config, ?_, hconfig, hloop, ?_⟩
    · rw [hhandoff]
      exact hplays
    · rw [hhandoff]
      exact Service.keeps_start _
  · exact ⟨List.Pairwise.nil, rfl, by simp [start]⟩

variable {x x' : Pickup} {parent : Int32} {root worker pipe : Nat}

/-! ## Pipes -/

theorem Piped.same (h : x.Piped) (hopened : x'.opened = x.opened)
    (hmade : x'.exchange.service.made = x.exchange.service.made)
    (hpipes : x.machine.pipes.length ≤ x'.machine.pipes.length) : x'.Piped := by
  refine ⟨?_, ?_, ?_⟩
  · rw [hopened]
    exact h.apart
  · rw [hopened, hmade]
    exact h.made
  · intro pipe hpipe
    rw [hopened] at hpipe
    exact Nat.lt_of_lt_of_le (h.old pipe hpipe) hpipes

/-- The pipes of a new job come after those of all others. -/
theorem Piped.snoc (h : x.Piped) (hopened : x'.opened = x.opened ++ [x.machine.pipes.length])
    (hmade : x'.exchange.service.made.length = x.exchange.service.made.length + 1)
    (hpipes : x.machine.pipes.length + 2 ≤ x'.machine.pipes.length) : x'.Piped := by
  refine ⟨?_, ?_, ?_⟩
  · rw [hopened, List.pairwise_append]
    refine ⟨h.apart, List.pairwise_singleton _ _, ?_⟩
    intro pipe hpipe new hnew
    rw [List.mem_singleton.mp hnew]
    exact h.old pipe hpipe
  · rw [hopened, hmade, List.length_append, h.made]
    rfl
  · intro pipe hpipe
    rw [hopened] at hpipe
    rcases List.mem_append.mp hpipe with hpipe | hpipe
    · have := h.old pipe hpipe
      omega
    · rw [List.mem_singleton.mp hpipe]
      omega

/-! ## Moves of one side -/

/-- The root changes nothing on the worker's side. -/
theorem Sound.of_root (h : x.Sound parent root worker)
    (hexchange : ∃ tail back, x'.exchange.Sound parent tail back)
    (hlatest : x'.exchange.desk.Latest) (hservice : x'.exchange.service = x.exchange.service)
    (hline : x'.exchange.up.line = x.exchange.up.line) (hroot : x'.root = x.root)
    (hworker : x'.worker = x.worker) (hopened : x'.opened = x.opened)
    (hmachine : ∃ owned, x.machine.Rewired x'.machine x.root owned)
    (hhand : ∃ pipe, x'.Hand pipe) : x'.Sound parent root worker := by
  obtain ⟨owned, hrewired⟩ := hmachine
  obtain ⟨r, config, hplays, hconfig, hloop, hkeeps⟩ := h.kept
  refine ⟨⟨hroot.trans h.same.1, hworker.trans h.same.2⟩, hexchange, hlatest, ?_, hhand,
    ⟨r, config, ?_, hconfig, ?_, ?_⟩, h.piped.same hopened (by rw [hservice]) hrewired.grows⟩
  · rw [hroot, hworker]
    exact h.apart
  · rw [hworker, hopened]
    exact hrewired.plays_other h.apart.symm hplays
  · rw [hservice]
    exact hloop
  · rw [hservice, hline]
    exact hkeeps

theorem Hand.of_worker (h : x.Hand pipe) (hdesk : x'.exchange.desk = x.exchange.desk)
    (hroot : x'.root = x.root) (hfetched : x'.fetched = x.fetched)
    (hreturned : x'.returned = x.returned) (hopened : x.opened <+: x'.opened)
    (hhas : ∀ owned, x.machine.Has x.root owned → x'.machine.Has x.root owned) :
    x'.Hand pipe := by
  refine ⟨?_, ?_, ?_, ?_, ?_⟩
  · unfold inHand
    rw [hroot, hfetched, hreturned]
    exact hhas _ h.has
  · rw [hfetched, hdesk]
    exact h.copies
  · rw [hfetched, hdesk]
    intro hne
    obtain ⟨hd, k, hholder, hplace, hpipe⟩ := h.mine hne
    exact ⟨hd, k, hholder, hplace, getElem?_of_prefix hopened hpipe⟩
  · rw [hreturned]
    intro j hj
    obtain ⟨k, hplace, hpipe⟩ := h.returned j hj
    exact ⟨k, hplace, getElem?_of_prefix hopened hpipe⟩
  · rw [hreturned, hdesk]
    exact h.calls

/-- The worker changes nothing on the root's side. -/
theorem Sound.of_worker (h : x.Sound parent root worker)
    (hexchange : ∃ tail back, x'.exchange.Sound parent tail back)
    (hdesk : x'.exchange.desk = x.exchange.desk) (hroot : x'.root = x.root)
    (hworker : x'.worker = x.worker) (hfetched : x'.fetched = x.fetched)
    (hreturned : x'.returned = x.returned) (hopened : x.opened <+: x'.opened)
    (hhas : ∀ owned, x.machine.Has x.root owned → x'.machine.Has x.root owned)
    (hkept : x'.Kept) (hpiped : x'.Piped) : x'.Sound parent root worker := by
  obtain ⟨pipe, hhand⟩ := h.hand
  refine ⟨⟨hroot.trans h.same.1, hworker.trans h.same.2⟩, hexchange, hdesk ▸ h.latest, ?_,
    ⟨pipe, ?_⟩, hkept, hpiped⟩
  · rw [hroot, hworker]
    exact h.apart
  · exact hhand.of_worker hdesk hroot hfetched hreturned hopened hhas

/-! ## The end of a turn -/

/-- Who has copied something is the call that has its turn. -/
theorem Hand.place (h : x.Hand pipe) {hd : Caller} (hholder : x.exchange.desk.holder = some hd)
    (hne : x.fetched ≠ []) : ∃ k, hd.place = some k ∧ x.opened[k]? = some pipe := by
  obtain ⟨hd', k, hholder', hplace, hpipe⟩ := h.mine hne
  rw [hholder] at hholder'
  cases hholder'
  exact ⟨k, hplace, hpipe⟩

theorem copies_le (d : Desk) : copies d ≤ 2 := by
  unfold copies
  split
  · omega
  · omega
  · omega
  · omega

/-- Only a call that has its reply copies something. -/
theorem copies_of_early {d : Desk} (h : ∀ hd, d.holder = some hd → hd.reply? = none) :
    copies d = 0 := by
  unfold copies
  cases hholder : d.holder with
  | none => rfl
  | some hd =>
    have hreply := h hd hholder
    obtain ⟨identity, call, place⟩ := hd
    cases call with
    | fetchingRead reply | connecting reply | greeting reply => cases hreply
    | _ => rfl

/-- What a call has copied is closed when it is over. -/
theorem Hand.rewired_release (h : x.Hand pipe) :
    x.machine.Rewired (x.machine.closeFds x.root x.fetched) x.root x.inHand := by
  refine Machine.rewired_closeFds h.has.holds ?_
  have hcopies := copies_le x.exchange.desk
  rw [← h.copies] at hcopies
  rw [List.map_fst_zip hcopies]
  exact fun _ hn => hn

theorem calls_of_turn {d d' : Desk} (hturn : Desk.Turn d d') :
    d'.done.filter (fun hd => hd.reply?.isSome) = d.done.filter fun hd => hd.reply?.isSome := by
  cases hturn with
  | same _ hdone _ _ => rw [hdone]
  | early _ _ _ _ hdone => rw [hdone]
  | ended more _ hdone hmore =>
    have hnone : more.filter (fun hd => hd.reply?.isSome) = [] := by
      refine List.filter_eq_nil_iff.mpr ?_
      intro hd hmem
      rw [hmore hd hmem]
      exact Bool.false_ne_true
    rw [hdone, List.filter_append, hnone, List.append_nil]

theorem copies_of_turn {d d' : Desk} {hd : Caller} (hturn : Desk.Turn d d')
    (hholder : d'.holder = some hd) :
    copies d' = copies d ∧ (copies d ≠ 0 → d'.holder = d.holder) := by
  cases hturn with
  | same hsame _ _ _ =>
    unfold copies
    rw [hsame]
    exact ⟨rfl, fun _ => rfl⟩
  | early hd' hhd' hreply hbefore _ =>
    have hzero := copies_of_early hbefore
    refine ⟨?_, fun hne => absurd hzero hne⟩
    rw [hzero]
    refine copies_of_early ?_
    intro hd hholder'
    rw [hhd'] at hholder'
    cases hholder'
    exact hreply
  | ended more hnone _ _ =>
    rw [hnone] at hholder
    cases hholder

/-- A call gets to a point before its reply, or ends without a job, or nothing happens to it. -/
theorem sound_turn (h : x.Sound parent root worker) {exchange : Exchange}
    (hexchange : ∃ tail back, exchange.Sound parent tail back)
    (hservice : exchange.service = x.exchange.service)
    (hline : exchange.up.line = x.exchange.up.line)
    (hturn : Desk.Turn x.exchange.desk exchange.desk) :
    (release { x with exchange }).Sound parent root worker := by
  obtain ⟨pipe, hhand⟩ := h.hand
  have hlatest := h.latest.turn hturn
  have hcalls := hhand.calls.trans (calls_of_turn hturn).symm
  unfold release
  cases hholder : exchange.desk.holder with
  | none =>
    have hrewired := hhand.rewired_release
    refine h.of_root hexchange hlatest hservice hline rfl rfl rfl ⟨_, hrewired⟩ ⟨pipe, ?_⟩
    refine ⟨?_, ?_, fun hne => absurd rfl hne, hhand.returned, hcalls⟩
    · rw [List.zip_nil_left, List.append_nil]
      exact hrewired.has hhand.has
    · simp [copies, hholder]
  | some hd =>
    obtain ⟨hcopies, hsame⟩ := copies_of_turn hturn hholder
    have hrefl := Machine.rewired_refl hhand.has.holds
    refine h.of_root hexchange hlatest hservice hline rfl rfl rfl ⟨_, hrefl⟩ ⟨pipe, ?_⟩
    refine ⟨hhand.has, hhand.copies.trans hcopies.symm, ?_, hhand.returned, hcalls⟩
    intro hne
    have hzero : copies x.exchange.desk ≠ 0 := by
      rw [← hhand.copies]
      exact fun hlength => hne (List.length_eq_zero_iff.mp hlength)
    rw [hsame hzero]
    exact hhand.mine hne

/-! ## While a call has its reply -/

/-- Who has taken as many start requests as there are has taken the last, if the messages end with
it. -/
theorem getLast?_of_starts {heard messages : List ControlMessage} {body : Start}
    (hheard : heard <+: messages) (hlast : messages.getLast? = some (.start body))
    (hall : (starts messages).length ≤ (starts heard).length) :
    heard.getLast? = some (.start body) := by
  obtain ⟨rest, rfl⟩ := hheard
  rcases List.eq_nil_or_concat' rest with rfl | ⟨front, m, rfl⟩
  · rw [List.append_nil] at hlast
    exact hlast
  · rw [← List.append_assoc, List.getLast?_concat] at hlast
    cases hlast
    rw [starts_append, starts_append, List.length_append, List.length_append] at hall
    have hone : (starts [.start body]).length = 1 := rfl
    omega

/-- The worker has started the call's job and nothing after it, has sent all its replies, and has
taken no message since the call's own request. -/
theorem settled {e : Exchange} {tail back : Bytes} (h : e.Sound parent tail back)
    (hlatest : e.desk.Latest) {hd : Caller} {reply : StartResult}
    (hholder : e.desk.holder = some hd) (hreply : hd.reply? = some reply) :
    ∃ k, hd.place = some k ∧ e.service.made.length = k + 1 ∧
      e.service.made[k]? = some (⟨hd.identity⟩, reply) ∧
      (∃ body, e.service.heard.getLast? = some (.start body)) ∧
      starts e.service.heard = e.service.requests ∧ e.up.line.sent = e.service.replies := by
  obtain ⟨k, hplace, hasked, hconsumed⟩ := hlatest hd reply hholder hreply
  obtain ⟨k', hplace', hidentity, hused⟩ := h.desk.owns (Or.inl hholder) hreply
  rw [hplace] at hplace'
  cases hplace'
  obtain ⟨identity, hidentity', hmade⟩ := h.made_of_used hused
  rw [hidentity] at hidentity'
  cases hidentity'
  have hheard := (List.prefix_append _ _).trans (h.down.received controlMessage_readsBack)
  rw [h.desk.sent] at hheard
  have hstarts := starts_prefix hheard
  rw [Exchange.starts_asked] at hstarts
  have hrequests := h.service.requests_prefix
  have hreceived := (List.prefix_append _ _).trans (h.up.received replyMessage_readsBack)
  have hsent := h.service.sent_prefix
  -- The root took a reply to each request, and the worker cannot have made more replies than that.
  have hleast := h.consumed_prefix.length_le
  have hmost := h.requests_prefix.length_le
  have hreplies := hreceived.length_le
  simp only [Service.requests, List.length_map, hasked, hconsumed] at hleast hmost hreplies
  have hlength : e.service.made.length = k + 1 := by omega
  have hall : starts e.service.heard = e.service.requests := by
    refine (hrequests.eq_of_length_le ?_).symm
    have hle := hstarts.length_le
    simp only [Service.requests, List.length_map, hasked, hlength] at hle ⊢
    exact hle
  refine ⟨k, hplace, hlength, hmade, ?_, hall, ?_⟩
  · rcases List.eq_nil_or_concat' e.desk.asked with hnil | ⟨front, last, hconcat⟩
    · rw [hnil] at hasked
      cases hasked
    · refine ⟨⟨last⟩, getLast?_of_starts hheard ?_ ?_⟩
      · rw [hconcat, List.map_append, ← List.cons_append]
        exact List.getLast?_concat
      · rw [Exchange.starts_asked, hall]
        simp only [Service.requests, List.length_map, hasked, hlength]
        omega
  · refine hsent.eq_of_length_le ?_
    simp only [Service.replies, List.length_map, hlength]
    exact hreplies

/-- The worker still keeps the ends of the call's job, under the numbers that the call was told. -/
theorem Sound.kept_for (h : x.Sound parent root worker) {hd : Caller} {reply : StartResult}
    (hholder : x.exchange.desk.holder = some hd) (hreply : hd.reply? = some reply) :
    ∃ k pipe r receive send, hd.place = some k ∧ x.opened[k]? = some pipe ∧
      x.exchange.service.made[k]? = some (⟨hd.identity⟩, reply) ∧
      x.machine.roleOf? x.worker = some r ∧ r.handoff = some (receive, send) ∧
      Service.Carries reply (receive, send) ∧
      x.machine.Plays x.worker r (Machine.parentEnds pipe (receive, send)) := by
  obtain ⟨tail, back, hexchange⟩ := h.exchange
  obtain ⟨k, hplace, hlength, hmade, ⟨body, hlast⟩, hstarts, hsent⟩ :=
    settled hexchange h.latest hholder hreply
  obtain ⟨r, config, hplays, -, -, hkeeps⟩ := h.kept
  obtain ⟨-, hkept⟩ := hkeeps.idle body hlast hstarts hsent
  obtain ⟨⟨receive, send⟩, hends⟩ := Option.isSome_iff_exists.mp hkept
  obtain ⟨request, result, hmade', hcarries⟩ := hkeeps.last _ hends
  have hopened := h.piped.made
  rw [hlength] at hopened
  have hpipe : x.opened.getLast? = x.opened[k]? := by
    rw [List.getLast?_eq_getElem?, hopened, Nat.add_sub_cancel]
  rw [List.getLast?_eq_getElem?, hlength, Nat.add_sub_cancel, hmade] at hmade'
  cases hmade'
  obtain ⟨pipe, hk⟩ : ∃ pipe, x.opened[k]? = some pipe :=
    ⟨_, List.getElem?_eq_getElem (by omega)⟩
  rw [hends, hpipe, hk] at hplays
  exact ⟨k, pipe, r, receive, send, hplace, hk, hmade, hplays.role, hends, hcarries, hplays⟩

/-! ## Copying -/

/-- Each of the two numbers can be copied, and the copy stands for an end of the call's own
pipes. -/
theorem Sound.fetch (h : x.Sound parent root worker) {hd : Caller} {number : Int32}
    (hholder : x.exchange.desk.holder = some hd)
    (hrequest : hd.call.request? = some (.fetch number)) :
    ∃ k pipe file copy copied, hd.place = some k ∧ x.opened[k]? = some pipe ∧
      (ofPipe pipe)[x.fetched.length]? = some file ∧
      (x.machine.fdsOf x.worker).file? number.toInt = some file ∧
      x.machine.fetch x.root x.worker number.toInt = (.ok copy, copied) ∧
      x.machine.Rewired copied x.root
        (x.inHand ++ (x.fetched ++ [copy]).zip (ofPipe pipe)) := by
  obtain ⟨pipe', hhand⟩ := h.hand
  have hcopies := hhand.copies
  obtain ⟨identity, call, place⟩ := hd
  cases call with
  | fetchingWrite reply =>
    cases hrequest
    obtain ⟨k, pipe, r, receive, send, hplace, hpipe, -, -, -, ⟨-, hsend⟩, hplays⟩ :=
      h.kept_for hholder rfl
    have hfile := hplays.holds.2 send (.writeEnd (pipe + 1)) (by simp [Machine.parentEnds])
    obtain ⟨copy, copied, hfetch, hrewired⟩ :=
      Machine.fetch_of_file hplays.alive hfile hhand.has
    have hnone : x.fetched = [] := by
      refine List.length_eq_zero_iff.mp (hcopies.trans ?_)
      simp [copies, hholder]
    rw [hnone] at hrewired ⊢
    rw [List.zip_nil_left, List.append_nil] at hrewired
    rw [hsend]
    exact ⟨k, pipe, _, copy, copied, hplace, hpipe, rfl, hfile, hfetch, hrewired⟩
  | fetchingRead reply =>
    cases hrequest
    obtain ⟨k, pipe, r, receive, send, hplace, hpipe, -, -, -, ⟨hreceive, -⟩, hplays⟩ :=
      h.kept_for hholder rfl
    have hfile := hplays.holds.2 receive (.readEnd pipe) (by simp [Machine.parentEnds])
    obtain ⟨copy, copied, hfetch, hrewired⟩ :=
      Machine.fetch_of_file hplays.alive hfile hhand.has
    have hone : x.fetched.length = 1 := by
      rw [hcopies]
      simp [copies, hholder]
    obtain ⟨writer, hwriter⟩ := List.length_eq_one_iff.mp hone
    obtain ⟨k', hplace', hpipe'⟩ := hhand.place hholder (by simp [hwriter])
    cases hplace.symm.trans hplace'
    cases hpipe.symm.trans hpipe'
    rw [hwriter] at hrewired ⊢
    rw [List.append_assoc] at hrewired
    rw [hreceive]
    exact ⟨k, _, _, copy, copied, hplace, hpipe, rfl, hfile, hfetch, hrewired⟩
  | _ => cases hrequest

theorem release_of_some {hd : Caller} (hholder : x.exchange.desk.holder = some hd) :
    x.release = x := by
  simp only [release, hholder]

theorem root_eq_some {e e' : Exchange} {move : Desk.Move}
    (hmove : e.next? (.root move) = some e') :
    ∃ line, e.desk.next? e.down.line move = some (e'.desk, line) ∧ e'.service = e.service ∧
      e'.up = e.up := by
  obtain ⟨⟨desk, line⟩, hdesk, rfl⟩ := Option.map_eq_some_iff.mp hmove
  exact ⟨line, hdesk, rfl, rfl⟩

/-- A call that is given what it asked for asks for the next thing. -/
theorem fetched_of_settle {d d' : Desk} {line line' : Line ControlMessage} {hd : Caller}
    (hholder : d.holder = some hd)
    (hmove : d.next? line (.settle (.fetched (.ok ()))) = some (d', line')) :
    ∃ call, ({ hd with call } : Caller).reply? = hd.reply? ∧
      d' = { d with holder := some { hd with call } } ∧ copies d' = copies d + 1 := by
  obtain ⟨hd', reply, hhd', -, hstages⟩ := Desk.settle_fetched hmove
  rw [hholder] at hhd'
  cases hhd'
  rcases hstages with ⟨hcall, rfl⟩ | ⟨hcall, rfl⟩
  · exact ⟨_, by simp [Caller.reply?, hcall], rfl, by simp [copies, hholder, hcall]⟩
  · exact ⟨_, by simp [Caller.reply?, hcall], rfl, by simp [copies, hholder, hcall]⟩

/-- A call copies the next end of its own job's pipes. -/
theorem sound_fetch (h : x.Sound parent root worker) (hmove : x.next? .fetch = some x') :
    x'.Sound parent root worker := by
  obtain ⟨hd, number, machine, hholder, hrequest, hmove⟩ := next?_fetch_eq_some hmove
  obtain ⟨k, pipe, file, copy, copied, hplace, hpipe, -, -, hfetch, hrewired⟩ :=
    h.fetch hholder hrequest
  rw [hfetch] at hmove
  rcases hmove with ⟨copy', heq, hmove⟩ | ⟨e, heq, -⟩
  · cases heq
    obtain ⟨pipe', hhand⟩ := h.hand
    obtain ⟨tail, back, hexchange⟩ := h.exchange
    obtain ⟨exchange, (hsettle : x.exchange.next? _ = some exchange), rfl⟩ := settle?_eq_some hmove
    obtain ⟨tail', back', hexchange'⟩ := Exchange.sound_next hexchange hsettle
    obtain ⟨line, hdesk, hservice, hup⟩ := root_eq_some hsettle
    obtain ⟨call, hreply, hdesk', hcopies⟩ := fetched_of_settle hholder hdesk
    have hholder' : exchange.desk.holder = some { hd with call } := by rw [hdesk']
    rw [release_of_some (x := { x with machine, fetched := _, exchange }) hholder']
    refine h.of_root ⟨_, _, hexchange'⟩ ?_ hservice (congrArg Link.line hup) rfl rfl rfl
      ⟨_, hrewired⟩ ⟨pipe, ?_⟩
    · simp only
      rw [hdesk']
      exact h.latest.goOn hholder hreply
    · refine ⟨hrewired.has hhand.has, ?_, ?_, hhand.returned, ?_⟩
      · simp only [List.length_append, List.length_singleton]
        rw [hcopies, hhand.copies]
      · intro _
        exact ⟨_, k, hholder', hplace, hpipe⟩
      · simp only
        rw [hdesk']
        exact hhand.calls
  · cases heq

/-! ## Getting the job -/

/-- What was copied makes a channel, so connecting cannot fail. -/
theorem sound_connect (h : x.Sound parent root worker) (hmove : x.next? .connect = some x') :
    x'.Sound parent root worker := by
  obtain ⟨writer, reader, machine, hfetched, hmove⟩ := next?_connect_eq_some hmove
  obtain ⟨pipe, hhand⟩ := h.hand
  obtain ⟨tail, back, hexchange⟩ := h.exchange
  have hhas := hhand.has
  rw [hfetched] at hhas
  rw [Machine.openChannel_of_file
    (hhas.holds.2 writer _ (List.mem_append_right _ List.mem_cons_self))
    (hhas.holds.2 reader _ (List.mem_append_right _ (List.mem_cons_of_mem _ List.mem_cons_self)))]
    at hmove
  rcases hmove with ⟨channel, heq, hmove⟩ | ⟨e, heq, -⟩
  · cases heq
    obtain ⟨exchange, (hsettle : x.exchange.next? _ = some exchange), rfl⟩ := settle?_eq_some hmove
    obtain ⟨tail', back', hexchange'⟩ := Exchange.sound_next hexchange hsettle
    obtain ⟨line, hdesk, hservice, hup⟩ := root_eq_some hsettle
    obtain ⟨hd, reply, hholder, -, hcall, hdesk'⟩ := Desk.settle_connected hdesk
    have hholder' : exchange.desk.holder = some { hd with call := .greeting reply } := by
      rw [hdesk']
    rw [release_of_some (x := { x with machine := x.machine, exchange }) hholder']
    refine h.of_root ⟨_, _, hexchange'⟩ ?_ hservice (congrArg Link.line hup) rfl rfl rfl
      ⟨_, Machine.rewired_refl hhand.has.holds⟩ ⟨pipe, hhand.has, ?_, ?_, hhand.returned, ?_⟩
    · simp only
      rw [hdesk']
      exact h.latest.goOn hholder (by simp [Caller.reply?, hcall])
    · rw [hhand.copies]
      simp [copies, hdesk', hholder, hcall]
    · intro hne
      obtain ⟨k, hplace, hpipe⟩ := hhand.place hholder hne
      exact ⟨_, k, hholder', hplace, hpipe⟩
    · simp only
      rw [hdesk']
      exact hhand.calls
  · cases heq

/-- The call returns its job, which is then connected with what the call has copied. -/
theorem sound_greet (h : x.Sound parent root worker) (hmove : x.next? .greet = some x') :
    x'.Sound parent root worker := by
  obtain ⟨identity, reply, place, writer, reader, hholder, hfetched, hmove⟩ :=
    next?_greet_eq_some hmove
  obtain ⟨pipe, hhand⟩ := h.hand
  obtain ⟨tail, back, hexchange⟩ := h.exchange
  obtain ⟨exchange, (hsettle : x.exchange.next? _ = some exchange), rfl⟩ := settle?_eq_some hmove
  obtain ⟨tail', back', hexchange'⟩ := Exchange.sound_next hexchange hsettle
  obtain ⟨line, hdesk, hservice, hup⟩ := root_eq_some hsettle
  obtain ⟨hd, reply', hhd, -, hcall, hdesk'⟩ := Desk.settle_greeted hdesk
  rw [hholder] at hhd
  cases hhd
  cases hcall
  have hfree : exchange.desk.holder = none := by rw [hdesk']
  obtain ⟨k, hplace, hpipe⟩ := hhand.place hholder (by simp [hfetched])
  cases hplace
  have hhas := hhand.has
  rw [hfetched] at hhas
  have hinHand : (x.returned ++ [(⟨⟨identity, .finished (.ok reply), some place⟩,
      x.opened[place]?.getD 0, writer, reader, true⟩ : Returned)]).flatMap Returned.files =
      x.inHand ++ [writer, reader].zip (ofPipe pipe) := by
    rw [hpipe, List.flatMap_append]
    rfl
  have hclosed : x.machine.Rewired (x.machine.closeFds x.root []) x.root
      (x.inHand ++ [writer, reader].zip (ofPipe pipe)) :=
    Machine.rewired_modifyFds x.machine x.root hhas.holds
  simp only [release, hfree]
  refine h.of_root ⟨_, _, hexchange'⟩ ?_ hservice (congrArg Link.line hup) rfl rfl rfl
    ⟨_, hclosed⟩ ⟨pipe, ?_, ?_, fun hne => absurd rfl hne, ?_, ?_⟩
  · intro hd reply hholder'
    rw [hfree] at hholder'
    cases hholder'
  · rw [List.zip_nil_left, List.append_nil]
    unfold inHand
    rw [hinHand]
    exact hclosed.has hhas
  · simp [copies, hfree]
  · intro j hj
    rcases List.mem_append.mp hj with hj | hj
    · exact hhand.returned j hj
    · rw [List.mem_singleton.mp hj, hpipe]
      exact ⟨place, rfl, hpipe⟩
  · rw [hdesk', List.map_append, hhand.calls, List.filter_append]
    rfl

/-- A job that is let go of loses its numbers, and no other job does. -/
theorem sound_letGo (h : x.Sound parent root worker) {i : Nat}
    (hmove : x.next? (.letGo i) = some x') : x'.Sound parent root worker := by
  obtain ⟨j, hj, rfl⟩ := Option.map_eq_some_iff.mp hmove
  obtain ⟨pipe, hhand⟩ := h.hand
  obtain ⟨hi, hget⟩ := List.getElem?_eq_some_iff.mp hj
  obtain ⟨front, behind, hreturned, -, hset⟩ : ∃ front behind,
      x.returned = front ++ x.returned[i] :: behind ∧ front.length = i ∧
      x.returned.set i { j with isHeld := false } =
        front ++ { j with isHeld := false } :: behind := List.exists_of_set hi
  rw [hget] at hreturned
  have hbefore : x.inHand =
      front.flatMap Returned.files ++ (j.files ++ behind.flatMap Returned.files) := by
    rw [inHand, hreturned, List.flatMap_append, List.flatMap_cons]
  have hafter : (x.returned.set i { j with isHeld := false }).flatMap Returned.files =
      front.flatMap Returned.files ++ behind.flatMap Returned.files := by
    rw [hset, List.flatMap_append, List.flatMap_cons]
    rfl
  have hclosed : x.machine.Rewired (x.machine.closeFds x.root (j.files.map Prod.fst)) x.root
      (front.flatMap Returned.files ++ behind.flatMap Returned.files ++
        x.fetched.zip (ofPipe pipe)) := by
    refine Machine.rewired_closeFds (hhand.has.holds.perm ?_) fun _ hn => hn
    rw [hbefore]
    simp only [List.append_assoc]
    refine .append_left _ ?_
    rw [← List.append_assoc]
    exact List.perm_append_comm
  refine h.of_root h.exchange h.latest rfl rfl rfl rfl rfl ⟨_, hclosed⟩
    ⟨pipe, ?_, hhand.copies, hhand.mine, ?_, ?_⟩
  · unfold inHand
    rw [hafter]
    exact hclosed.has hhand.has
  · intro j' hj'
    rcases List.mem_or_eq_of_mem_set hj' with hmem | rfl
    · exact hhand.returned j' hmem
    · exact hhand.returned j (List.mem_of_getElem? hj)
  · rw [← hhand.calls, hset, hreturned]
    simp

/-! ## Other moves of the root -/

theorem sound_root (h : x.Sound parent root worker) {move : Desk.Move}
    (hmove : x.next? (.root move) = some x') : x'.Sound parent root worker := by
  obtain ⟨exchange, hgives, hnext, rfl⟩ := next?_root_eq_some hmove
  obtain ⟨tail, back, hexchange⟩ := h.exchange
  obtain ⟨tail', back', hexchange'⟩ := Exchange.sound_next hexchange hnext
  obtain ⟨line, hdesk, hservice, hup⟩ := root_eq_some hnext
  exact sound_turn h ⟨_, _, hexchange'⟩ hservice (congrArg Link.line hup)
    (Desk.turn_of_next? hexchange.desk hgives hdesk)

/-- The call takes its own reply, and has copied nothing yet. -/
theorem sound_receive (h : x.Sound parent root worker) (hmove : x.next? .receive = some x') :
    x'.Sound parent root worker := by
  obtain ⟨exchange, hnext, rfl⟩ := Option.map_eq_some_iff.mp hmove
  obtain ⟨tail, back, hexchange⟩ := h.exchange
  obtain ⟨pipe, hhand⟩ := h.hand
  have hexchange' := Exchange.sound_receive hexchange hnext
  obtain ⟨⟨received, up⟩, hrecv, hnext⟩ := Option.bind_eq_some_iff.mp hnext
  obtain ⟨desk, hdesk, rfl⟩ := Option.map_eq_some_iff.mp hnext
  have hline : up.line = x.exchange.up.line := by
    obtain ⟨answer, -, heq⟩ := Option.map_eq_some_iff.mp hrecv
    cases heq
    rfl
  rcases Desk.turn_of_receive? hdesk with hturn |
    ⟨hd, reply, hholder, hcall, hholder', hdone, -, -⟩
  · exact sound_turn h ⟨_, _, hexchange'⟩ rfl hline hturn
  · rw [release_of_some (x := { x with exchange := { x.exchange with desk, up } }) hholder']
    refine h.of_root ⟨_, _, hexchange'⟩ (Desk.latest_receive hexchange.desk h.latest hdesk) rfl
      hline rfl rfl rfl ⟨_, Machine.rewired_refl hhand.has.holds⟩
      ⟨pipe, hhand.has, ?_, ?_, hhand.returned, ?_⟩
    · rw [hhand.copies]
      simp [copies, hholder, hholder', hcall]
    · intro hne
      have hzero : copies x.exchange.desk = 0 := by simp [copies, hholder, hcall]
      rw [← hhand.copies] at hzero
      exact absurd (List.length_eq_zero_iff.mp hzero) hne
    · rw [hhand.calls, hdone]

end ProcessTree.Pickup
