-- A job that no call got hold of. The worker lets go of its ends with the next event, and no child,
-- copy or later job has one of them; so nobody can write to it, and it ends by itself.
import ProcessTree.Proofs.Worker.OwnPipes
import ProcessTree.Proofs.Worker.Writers

namespace ProcessTree.Desertion

variable {x x' : Desertion} {m : Machine} {k pipe pid root worker : Nat} {parent : Int32}
  {p : Proc} {r : RoleRun}

/-! ## The worker -/

/-- The loop goes on, and the worker keeps what it keeps. -/
theorem Sound.setRole (h : x.Sound) {exchange : Exchange} {loop : RoleLoop}
    (hexchange : ∃ parent tail back, exchange.Sound parent tail back)
    (hdesk : exchange.desk = x.exchange.desk)
    (hmade : exchange.service.made = x.exchange.service.made)
    (hrole : x.machine.roleOf? x.worker = some r)
    (hstage : ∀ request, exchange.service.loop.stage = .starting request →
      x.exchange.service.loop.stage = .starting request) :
    ({ x with
      exchange
      machine := x.machine.setRole x.worker { r with loop } } : Desertion).Sound := by
  have hhandoff : (x.machine.setRole x.worker { r with loop }).handoffOf x.worker =
      x.machine.handoffOf x.worker := by
    rw [Machine.handoffOf_setRole hrole]
    unfold Machine.handoffOf
    rw [hrole]
    rfl
  refine h.of_worker hexchange hdesk hmade (Machine.touches_setRole _ _ _).toAlters
    (h.grounded.setRole _ _) ?_ h.attended ?_
  · intro ends hends
    obtain ⟨hless, hnone⟩ := h.handed ends (hhandoff ▸ hends)
    exact ⟨hless, fun request hstart => hnone request (hstage request hstart)⟩
  · intro k pipe hpipe
    refine (Machine.noneGains_setRole _ _ _ _ _ (h.within k pipe hpipe)).mono ?_
    exact fun q n hn => hn.imp (fun _ => id) fun _ hmay => hmay.of_same rfl hhandoff

theorem sound_worker (h : x.Sound) {move : Service.Move}
    (hmove : x.next? (.pickup (.worker move)) = some x') : x'.Sound := by
  obtain ⟨pickup, hpickup, rfl⟩ := Option.map_eq_some_iff.mp hmove
  obtain ⟨r, exchange, -, hmake, hrole, hnext, rfl⟩ := Pickup.next?_worker_eq_some hpickup
  obtain ⟨parent, tail, back, hexchange⟩ := h.exchange
  obtain ⟨hservice, hdesk⟩ := Pickup.worker_eq_some hnext
  exact h.setRole ⟨parent, Exchange.sound_next hexchange hnext⟩ hdesk
    (Service.made_of_next? hmake hservice) hrole fun _ => Service.starting_of_next? hservice

/-- Whatever event it takes, the worker keeps nothing after it. -/
theorem sound_attend (h : x.Sound) {exchange : Exchange} {event : LoopEvent}
    (hexchange : ∃ parent tail back, exchange.Sound parent tail back)
    (hdesk : exchange.desk = x.exchange.desk)
    (hmade : exchange.service.made = x.exchange.service.made)
    (hrole : x.machine.roleOf? x.worker = some r) : (x.attend exchange r event).Sound := by
  have hnone : (x.machine.onEvent x.worker r event).handoffOf x.worker = none :=
    Machine.handoffOf_setRole (Machine.roleOf?_closeFds.trans hrole) _
  refine h.of_worker hexchange hdesk hmade
    ((Machine.touches_closeFds _ _ _).trans (Machine.touches_setRole _ _ _)).toAlters
    (h.grounded.onEvent _ _ _) ?_ (Nat.le_refl _) ?_
  · intro ends hends
    rw [hnone] at hends
    cases hends
  · intro k pipe hpipe
    refine Machine.noneGains_setRole _ _ _ _ _ (within_closeFds_worker (h.within k pipe hpipe) ?_)
    rintro n ⟨-, ends, hends, rfl⟩
    unfold Machine.handoffOf at hends
    rw [hrole] at hends
    refine .inl ?_
    rw [show r.handoff = some ends from hends]
    exact List.mem_cons_of_mem _ List.mem_cons_self

/-- What its channel gives is a message, or an end. -/
theorem sound_given (h : x.Sound) {exchange : Exchange} {event : LoopEvent}
    (hnext : x.exchange.next? .hear = some exchange)
    (hrole : x.machine.roleOf? x.worker = some r) : (x.attend exchange r event).Sound := by
  obtain ⟨parent, tail, back, hexchange⟩ := h.exchange
  have hexchange' := Exchange.sound_hear hexchange hnext
  obtain ⟨⟨received, down⟩, -, hnext⟩ := Option.bind_eq_some_iff.mp hnext
  obtain ⟨service, hhear, rfl⟩ := Option.map_eq_some_iff.mp hnext
  obtain ⟨-, rfl⟩ := Service.hear?_eq_some hhear
  exact sound_attend h ⟨_, _, _, hexchange'⟩ rfl rfl hrole

theorem sound_hear (h : x.Sound) (hmove : x.next? (.pickup .hear) = some x') : x'.Sound := by
  obtain ⟨pickup, hpickup, rfl⟩ := Option.map_eq_some_iff.mp hmove
  obtain ⟨r, message, down, exchange, hrole, -, hnext, rfl⟩ := Pickup.next?_hear_eq_some hpickup
  exact sound_given h hnext hrole

theorem sound_signal (h : x.Sound) {s : Signal} (hmove : x.next? (.signal s) = some x') :
    x'.Sound := by
  obtain ⟨r, hrole, hmove⟩ := Option.bind_eq_some_iff.mp hmove
  obtain ⟨exchange, hnext, rfl⟩ := Option.map_eq_some_iff.mp hmove
  obtain ⟨parent, tail, back, hexchange⟩ := h.exchange
  obtain ⟨hservice, hdesk⟩ := Pickup.worker_eq_some hnext
  exact sound_attend h ⟨parent, Exchange.sound_next hexchange hnext⟩ hdesk
    (Service.made_of_next? (fun _ heq => by cases heq) hservice) hrole

theorem sound_lose (h : x.Sound) (hmove : x.next? .lose = some x') : x'.Sound := by
  simp only [next?, lose?] at hmove
  split at hmove
  · rename_i r e down hrole _
    obtain ⟨exchange, hnext, rfl⟩ := Option.map_eq_some_iff.mp hmove
    exact sound_given h hnext hrole
  · cases hmove

/-! ## New processes -/

/-- Neither party's child gets what a job is written to over. -/
theorem sound_spawn (h : x.Sound) {options : SpawnOptions}
    {result : Except ProcessError (Handle × Machine.NewChannel)}
    (hparty : pid = x.root ∨ pid = x.worker) (hspawn : x.machine.spawn pid options = (result, m)) :
    ({ x with machine := m } : Desertion).Sound := by
  have hthere : x.machine.IsThere pid := by
    rcases hparty with rfl | rfl
    · exact h.grounded.root
    · exact h.grounded.worker
  have hgrounded := h.grounded.spawn hthere hspawn
  obtain ⟨p, hp, hsingle⟩ := hthere
  have hspawns := Machine.spawns_of_spawn hp hspawn
  have hapart {q : Nat} (hq : q ∈ x.jobs) : q ≠ pid := by
    obtain ⟨hroot, hworker, -⟩ := h.apart q hq
    rcases hparty with rfl | rfl
    · exact hroot
    · exact hworker
  refine h.onMachine hgrounded (hspawns.handoffOf h.grounded.worker) ?_
    (by rw [hspawns.length]; omega) hspawns.later ?_ ?_
  · intro pipe hpipe who hwithin
    refine hwithin.spawn hp hsingle ?_ hspawn
    have hold := h.piped.old pipe hpipe
    rintro i - (hfile | hfile)
    · cases hfile
    · have := OpenFile.writeEnd.inj hfile
      omega
  · rintro q hq ⟨job, hjob, hplays⟩
    exact ⟨job, hspawns.others q job (hapart hq) hjob, hplays⟩
  · intro k pipe q hpipe hq _ hsilent
    obtain ⟨job, hjob, -⟩ := hsilent.quiet
    refine hsilent.others ?_ (hspawns.pipe (h.old hpipe))
    rw [hspawns.others q job (hapart (List.mem_of_getElem? hq)) hjob, hjob]

theorem bounded_of_tells {options : SpawnOptions} {job : Handle} {ends : Machine.NewChannel}
    (htells : x.tells = true) (hspawn : x.machine.spawn x.worker options = (.ok (job, ends), m)) :
    ends.child.receive ≤ Invocation.maxFd ∧ ends.child.send ≤ Invocation.maxFd := by
  obtain ⟨ends', m₁, hends, ⟨child, -, heq⟩ | ⟨e, closed, -, heq, -⟩⟩ := Machine.spawn_eq hspawn
  · cases heq
    unfold tells at htells
    rw [hends] at htells
    simpa using htells
  · cases heq

theorem getElem?_snoc {α : Type} {l : List α} {a b : α} (h : (l ++ [a])[k]? = some b) :
    l[k]? = some b ∨ (k = l.length ∧ b = a) := by
  rcases Nat.lt_or_ge k l.length with hk | hk
  · rw [List.getElem?_append_left hk] at h
    exact .inl h
  · rw [List.getElem?_append_right hk, List.getElem?_singleton] at h
    obtain ⟨hk', heq⟩ := Option.ite_none_right_eq_some.mp h
    exact .inr ⟨by omega, (Option.some.inj heq).symm⟩

/-- A job that was just started is neither party, and has heard nothing. -/
theorem Sound.newcomer (h : x.Sound) {config : Config} {identity : JobIdentity} {job : Handle}
    {ends : Machine.NewChannel} (htells : x.tells = true)
    (hspawn : x.machine.spawn x.worker (.job config identity x.machine.running) =
      (.ok (job, ends), m)) :
    m.Silent x.machine.nextPid (x.machine.pipes.length + 1) ∧
      x.machine.nextPid ≠ x.root ∧ x.machine.nextPid ≠ x.worker ∧
      x.machine.nextPid < m.nextPid := by
  obtain ⟨p, hp, hsingle⟩ := h.grounded.worker
  have hbounded := bounded_of_tells htells hspawn
  obtain ⟨-, t, hoffspring⟩ :=
    Machine.offspring_of_spawn hp hsingle h.grounded.fresh hbounded hspawn
  have hfresh {q : Nat} (hthere : x.machine.IsThere q) : x.machine.nextPid ≠ q := by
    obtain ⟨old, hold, -⟩ := hthere
    have hless := h.grounded.fresh old (List.mem_of_find?_eq_some hold)
    rw [Machine.pid_of_proc? hold] at hless
    omega
  have hnew := (h.grounded.spawn h.grounded.worker hspawn).fresh _
    (List.mem_of_find?_eq_some hoffspring.proc)
  rw [Machine.pid_of_proc? hoffspring.proc] at hnew
  exact ⟨hoffspring.silent h.grounded.behaviour h.grounded.configured hbounded,
    hfresh h.grounded.root, hfresh h.grounded.worker, hnew⟩

/-- A new job: only the worker can write to it, and it has heard nothing. -/
theorem sound_made (h : x.Sound) {request : Start} {config : Config} {job : Handle}
    {ends : Machine.NewChannel} {loop : RoleLoop} {exchange : Exchange} (htells : x.tells = true)
    (hrole : x.machine.roleOf? x.worker = some r)
    (hspawn : x.machine.spawn x.worker (.job config request.identity x.machine.running) =
      (.ok (job, ends), m))
    (hnext : x.exchange.next? (.worker (.make (.ok (Machine.replyOf job ends)))) = some exchange) :
    ({ x with
      exchange
      machine := m.setRole x.worker { r with
        jobs := r.jobs ++ [job]
        handoff := some (ends.receive, ends.send)
        loop }
      opened := x.opened ++ [x.machine.pipes.length]
      jobs := x.jobs ++ [x.machine.nextPid] } : Desertion).Sound := by
  obtain ⟨parent, tail, back, hexchange⟩ := h.exchange
  obtain ⟨hservice, hdesk⟩ := Pickup.worker_eq_some hnext
  obtain ⟨request', hstarting, -, hservice'⟩ := Service.next?_make_eq_some hservice
  have hstarted := sound_spawn h (.inr rfl) hspawn
  obtain ⟨p, hp, hsingle⟩ := h.grounded.worker
  have hspawns := Machine.spawns_of_spawn hp hspawn
  obtain ⟨hsilent, hroot, hworker, hnew⟩ := h.newcomer htells hspawn
  have hroled : m.roleOf? x.worker = some r := Machine.roleOf?_spawn hrole hspawn
  generalize hr' : ({ r with
    jobs := r.jobs ++ [job]
    handoff := some (ends.receive, ends.send)
    loop } : RoleRun) = r'
  have halters := (Machine.touches_setRole m x.worker r').toAlters
  have hhandoff : (m.setRole x.worker r').handoffOf x.worker = some (ends.receive, ends.send) := by
    rw [Machine.handoffOf_setRole hroled, ← hr']
  refine ⟨⟨parent, Exchange.sound_next hexchange hnext⟩, hdesk ▸ h.latest, hdesk ▸ h.idle, ?_,
    hstarted.grounded.setRole _ _, ?_, ?_, ?_, ?_, ?_, ?_, ?_, ?_⟩
  · refine h.piped.snoc rfl ?_ (by rw [halters.pipes, hspawns.length]; omega)
    simp only [hservice', List.length_append]
    rfl
  · intro _ _
    simp only [hservice', List.length_append, List.length_singleton]
    exact ⟨Nat.lt_succ_of_le h.attended, nofun⟩
  · simp only [List.length_append]
    exact Nat.le_add_right_of_le h.attended
  · intro k pipe hpipe
    refine Machine.noneGains_setRole _ _ _ _ _ ?_
    rcases getElem?_snoc hpipe with hpipe | ⟨rfl, rfl⟩
    · refine (hstarted.within k pipe hpipe).mono fun q n hn => hn.imp ?_ ?_
      · intro n hmay
        exact hmay.mono (List.Subset.refl _) (fun _ => by rw [hdesk]) (List.Subset.refl _)
      · -- It has kept nothing, or it would not have started another job.
        rintro n ⟨-, kept, hkept, -⟩
        exact absurd hstarting ((hstarted.handed kept hkept).2 request')
    · -- Before it was started, nobody had the end of a pipe that there was not.
      have hfree := Machine.within_of_isHeld
        (h.grounded.formed (x.machine.pipes.length + 1) (Nat.le_succ _)) fun _ _ => False
      refine (hfree.spawn_own hp hsingle hspawn).mono ?_
      rintro q n ⟨rfl, rfl⟩
      refine .inr ⟨rfl, ?_, _, hhandoff, rfl⟩
      simp
  · simp only [List.length_append, List.length_singleton, h.count]
  · refine List.nodup_append.mpr ⟨h.single, List.nodup_singleton _, ?_⟩
    rintro q hq _ hsame rfl
    rw [List.mem_singleton.mp hsame] at hq
    exact absurd (h.apart _ hq).2.2 (Nat.lt_irrefl _)
  · intro q hq
    rcases List.mem_append.mp hq with hq | hq
    · exact hstarted.apart q hq
    · rw [List.mem_singleton.mp hq]
      exact ⟨hroot, hworker, hnew⟩
  · intro q hq
    rcases List.mem_append.mp hq with hq | hq
    · exact (hstarted.plays q hq).others (halters.others q (h.apart q hq).2.1)
    · rw [List.mem_singleton.mp hq]
      exact hsilent.playsJob.others (halters.others _ hworker)
  · intro k pipe q hpipe hq hconnected
    have hpipes : (m.setRole x.worker r').pipes[pipe + 1]? = m.pipes[pipe + 1]? := by
      rw [halters.pipes]
    rcases getElem?_snoc hpipe with hpipe | ⟨rfl, rfl⟩
    · have hk := (List.getElem?_eq_some_iff.mp hpipe).1
      rw [← h.count] at hk
      have hq' : x.jobs[k]? = some q := by
        rwa [List.getElem?_append_left hk] at hq
      exact (hstarted.silent k pipe q hpipe hq' hconnected).others
        (halters.others q (h.job_apart hq').2.1) hpipes
    · rw [← h.count, List.getElem?_concat_length] at hq
      cases hq
      exact hsilent.others (halters.others _ hworker) hpipes

theorem sound_make (h : x.Sound) (hmove : x.next? (.pickup .make) = some x') : x'.Sound := by
  simp only [next?, make?] at hmove
  split at hmove
  · rename_i htells
    obtain ⟨pickup, hpickup, rfl⟩ := Option.map_eq_some_iff.mp hmove
    obtain ⟨r, request, config, hrole, -, started, exchange, ⟨e, hspawn, hnext, rfl⟩ |
      ⟨job, ends, hspawn, -, hnext, rfl⟩⟩ := Pickup.next?_make_eq_some hpickup
    · obtain ⟨parent, tail, back, hexchange⟩ := h.exchange
      obtain ⟨hservice, hdesk⟩ := Pickup.worker_eq_some hnext
      have hmachine : x.machine.startJob x.worker r config request = started.setRole x.worker
          { r with loop := r.loop.onStarted (.error (.process e)) } := by
        unfold Machine.startJob
        rw [hspawn]
      simp only [hmachine, List.drop_length, List.map_nil, List.append_nil]
      exact (sound_spawn h (.inr rfl) hspawn).setRole
        ⟨parent, Exchange.sound_next hexchange hnext⟩ hdesk
        (Service.made_of_next? (fun _ heq => by cases heq) hservice)
        (Machine.roleOf?_spawn hrole hspawn) fun _ => Service.starting_of_next? hservice
    · have hmachine : x.machine.startJob x.worker r config request = started.setRole x.worker
          { r with
            jobs := r.jobs ++ [job]
            handoff := some (ends.receive, ends.send)
            loop := r.loop.onStarted (.ok (Machine.replyOf job ends)) } := by
        unfold Machine.startJob
        rw [hspawn]
      simp only [hmachine, List.drop_left, List.map_cons, List.map_nil]
      exact sound_made h htells hrole hspawn hnext
  · cases hmove

/-! ## Jobs -/

theorem job?_eq_some (hjob : x.job? k = some (p, r)) :
    ∃ pid, x.jobs[k]? = some pid ∧ x.machine.proc? pid = some p ∧ p.life = .alive ∧
      p.program = .role r := by
  obtain ⟨pid, hpid, hjob⟩ := Option.bind_eq_some_iff.mp hjob
  obtain ⟨p', hp, hjob⟩ := Option.bind_eq_some_iff.mp hjob
  obtain ⟨hactive, hjob⟩ := Option.ite_none_right_eq_some.mp hjob
  obtain ⟨r', hrole, heq⟩ := Option.map_eq_some_iff.mp hjob
  cases heq
  have halive : p.life = .alive := by
    unfold Proc.isActive at hactive
    simp only [Bool.and_eq_true, beq_iff_eq] at hactive
    exact hactive.1
  obtain ⟨p'', hp'', -, hprogram⟩ :=
    (Machine.Plays.proc ⟨by simp [Machine.isAlive, hp, halive], hrole, FdTable.holds_nil _⟩)
  rw [hp] at hp''
  cases hp''
  exact ⟨pid, hpid, hp, halive, hprogram⟩

/-- Of a job that goes on nobody else knows. -/
theorem Sound.works (h : x.Sound) (hjob : x.jobs[k]? = some pid) (hworks : x.machine.WorksOn m pid)
    (hsilent : ∀ pipe, x.machine.Silent pid (pipe + 1) → m.Silent pid (pipe + 1)) :
    ({ x with machine := m } : Desertion).Sound := by
  obtain ⟨hworks, hplays⟩ := hworks
  obtain ⟨hroot, hworker, -⟩ := h.job_apart hjob
  refine h.onMachine (h.grounded.works hworks hroot hworker)
    (Machine.handoffOf_of_proc (hworks.others _ hworker.symm)) (fun _ _ _ => hworks.gains _ _)
    (Nat.le_of_eq hworks.length.symm) (by rw [hworks.rest]) ?_ ?_
  · intro q _ hold
    by_cases hq : q = pid
    · rw [hq]
      exact hplays
    · exact hold.others (hworks.others q hq)
  · intro _ pipe q _ _ _ hold
    by_cases hq : q = pid
    · rw [hq] at hold ⊢
      exact hsilent pipe hold
    · obtain ⟨p, hp, hquiet⟩ := hold.quiet
      exact ⟨hworks.drained _ hold.drained, p, (hworks.others q hq).trans hp, hquiet⟩

/-- Who has ended, or was sent a signal, has nothing more by it. -/
theorem Sound.strikes (h : x.Sound) (hstrikes : x.machine.Strikes m)
    (hgains : x.machine.NoneGains m) (hrole : m.roleOf? x.worker = x.machine.roleOf? x.worker) :
    ({ x with machine := m } : Desertion).Sound := by
  refine h.onMachine (h.grounded.strikes hstrikes hgains) (Machine.handoffOf_of_role hrole)
    (fun _ _ _ => hgains _ _) (by rw [hstrikes.rest]) (by rw [hstrikes.rest]) ?_ ?_
  · intro q _ hplays
    exact hplays.strikes hstrikes
  · intro _ _ _ _ _ _ hsilent
    exact hsilent.strikes hstrikes

theorem sound_endProc (h : x.Sound) (pid : Nat) (state : ExitState) :
    ({ x with machine := x.machine.endProc pid state } : Desertion).Sound :=
  h.strikes (Machine.loses_endProc _ _ _).strikes (Machine.noneGains_endProc _ _ _)
    Machine.roleOf?_endProc

/-- A job that can go on, as it stands. -/
theorem Sound.isJob (h : x.Sound) (hjob : x.jobs[k]? = some pid)
    (hp : x.machine.proc? pid = some p) (halive : p.life = .alive)
    (hprogram : p.program = .role r) : r.IsJob := by
  obtain ⟨p', hp', hplays⟩ := h.plays pid (List.mem_of_getElem? hjob)
  rw [hp] at hp'
  cases hp'
  obtain ⟨r', hprogram', hr⟩ := hplays halive
  rw [hprogram] at hprogram'
  cases hprogram'
  exact hr

theorem quiet_of_silent (h : m.Silent pid pipe) (hp : m.proc? pid = some p)
    (halive : p.life = .alive) (hprogram : p.program = .role r) : Machine.Quiet p r pipe := by
  obtain ⟨p', hp', hquiet⟩ := h.quiet
  rw [hp] at hp'
  cases hp'
  obtain ⟨r', hr⟩ := hquiet halive
  have hsame := hr.program
  rw [hprogram] at hsame
  cases hsame
  exact hr

theorem sound_goOn (h : x.Sound) (hmove : x.next? (.goOn k) = some x') : x'.Sound := by
  obtain ⟨⟨p, r⟩, hjob, hnext⟩ := Option.bind_eq_some_iff.mp hmove
  obtain ⟨m, hgoes, rfl⟩ := Option.map_eq_some_iff.mp hnext
  obtain ⟨pid, hpid, hp, halive, hprogram⟩ := job?_eq_some hjob
  rcases Machine.worksOn_roleMove? hp (h.isJob hpid hp halive hprogram) hgoes with
    ⟨code, rfl⟩ | hworks
  · exact sound_endProc h pid _
  · refine h.works hpid hworks fun pipe hsilent => ?_
    have hquiet := quiet_of_silent hsilent hp halive hprogram
    rcases hquiet.move hp hsilent.drained hgoes with rfl | ⟨r', hproceeds⟩
    · exact hsilent.strikes (Machine.loses_endProc _ _ _).strikes
    · exact hproceeds.silent hsilent

theorem sound_listen (h : x.Sound) (hmove : x.next? (.listen k) = some x') : x'.Sound := by
  obtain ⟨⟨p, r⟩, hjob, hnext⟩ := Option.bind_eq_some_iff.mp hmove
  obtain ⟨c, hchannel, hnext'⟩ := Option.bind_eq_some_iff.mp hnext
  obtain ⟨m, hgoes, rfl⟩ := Option.map_eq_some_iff.mp hnext'
  obtain ⟨pid, hpid, hp, halive, hprogram⟩ := job?_eq_some hjob
  rw [Machine.pid_of_proc? hp] at hgoes
  refine h.works hpid (Machine.worksOn_backgroundMove? hp (h.isJob hpid hp halive hprogram) hgoes)
    fun pipe hsilent => ?_
  have hquiet := quiet_of_silent hsilent hp halive hprogram
  exact (hquiet.listen hp hsilent.drained hchannel hgoes).silent hsilent

theorem sound_notice (h : x.Sound) (hmove : x.next? (.notice k) = some x') : x'.Sound := by
  obtain ⟨⟨p, r⟩, hjob, hnext⟩ := Option.bind_eq_some_iff.mp hmove
  obtain ⟨m, hgoes, rfl⟩ := Option.map_eq_some_iff.mp hnext
  obtain ⟨pid, hpid, hp, halive, hprogram⟩ := job?_eq_some hjob
  unfold notice? at hgoes
  split at hgoes
  · rename_i c _ hchannel
    obtain ⟨⟨s, m₁⟩, hcatch, rfl⟩ := Option.map_eq_some_iff.mp hgoes
    rw [Machine.pid_of_proc? hp] at hcatch ⊢
    refine h.works hpid (Machine.worksOn_caught hp (h.isJob hpid hp halive hprogram) hcatch)
      fun pipe hsilent => ?_
    have hquiet := quiet_of_silent hsilent hp halive hprogram
    obtain ⟨r', hproceeds, -⟩ := hquiet.caught hp hchannel hcatch
    exact hproceeds.silent hsilent
  · cases hgoes

/-! ## All moves -/

theorem sound_next {move : Move} (h : x.Sound) (hmove : x.next? move = some x') : x'.Sound := by
  cases move with
  | pickup move =>
    cases move with
    | root move => exact sound_root h hmove
    | receive => exact sound_receive h hmove
    | fetch => exact sound_fetch h hmove
    | connect => exact sound_connect h hmove
    | greet => exact sound_greet h hmove
    | letGo i => exact sound_letGo h hmove
    | worker move => exact sound_worker h hmove
    | make => exact sound_make h hmove
    | hear => exact sound_hear h hmove
    | down carry | up carry =>
      obtain ⟨pickup, hpickup, rfl⟩ := Option.map_eq_some_iff.mp hmove
      obtain ⟨exchange, hnext, rfl⟩ := Option.map_eq_some_iff.mp hpickup
      obtain ⟨parent, tail, back, hexchange⟩ := h.exchange
      have hexchange' := Exchange.sound_next hexchange hnext
      obtain ⟨link, -, rfl⟩ := Option.map_eq_some_iff.mp hnext
      exact h.of_worker ⟨parent, hexchange'⟩ rfl rfl (Machine.alters_refl _ _) h.grounded h.handed
        h.attended h.within
  | signal s => exact sound_signal h hmove
  | lose => exact sound_lose h hmove
  | fall state =>
    cases hmove
    exact sound_endProc h _ state
  | launch options =>
    cases hmove
    exact sound_spawn h (.inl rfl) rfl
  | goOn k => exact sound_goOn h hmove
  | listen k => exact sound_listen h hmove
  | notice k => exact sound_notice h hmove
  | strike k s =>
    obtain ⟨pid, -, rfl⟩ := Option.map_eq_some_iff.mp hmove
    exact h.strikes (Machine.strikes_signal _ _ _) (Machine.noneGains_signal _ _ _)
      Machine.roleOf?_signal

theorem sound_others (h : x.Sound) (hothers : x.Undisturbed m) :
    ({ x with machine := m } : Desertion).Sound := by
  refine h.onMachine hothers.grounded hothers.handoff hothers.gains hothers.longer hothers.later
    ?_ ?_
  · rintro q hq ⟨p, hp, hplays⟩
    obtain ⟨p', hp', hsame⟩ := hothers.jobs q hq p hp
    refine ⟨p', hp', fun halive => ?_⟩
    obtain rfl := hsame halive
    exact hplays halive
  · rintro k pipe q hpipe hq hconnected ⟨⟨pending, hpending, hsize⟩, p, hp, hquiet⟩
    obtain ⟨p', hp', hsame⟩ := hothers.jobs q (List.mem_of_getElem? hq) p hp
    refine ⟨⟨pending, (hothers.pipes k pipe hpipe hconnected).trans hpending, hsize⟩, p', hp',
      fun halive => ?_⟩
    obtain rfl := hsame halive
    exact hquiet halive

theorem sound_step (h : x.Sound) (hstep : Step x x') : x'.Sound := by
  cases hstep with
  | move hmove => exact sound_next h hmove
  | others hothers => exact sound_others h hothers

/-- The invariant carries over a whole run, by induction on its steps. -/
theorem sound_run (h : x.Sound) (hrun : Relation.ReflTransGen Step x x') : x'.Sound := by
  induction hrun with
  | refl => exact h
  | tail _ hstep ih => exact sound_step ih hstep

/-! ## The law -/

/-- The worker has not started a job yet. -/
structure Ready (m : Machine) (root worker : Nat) : Prop where
  grounded : m.Grounded root worker
  nothing : m.handoffOf worker = none

theorem sound_begin (hready : Ready m root worker) : (begin m root worker parent).Sound := by
  refine ⟨⟨parent, [], [], Exchange.sound_start parent⟩, Desk.latest_start,
    fun hne => absurd rfl hne, ⟨List.Pairwise.nil, rfl, nofun⟩, hready.grounded, ?_, Nat.le_refl 0, nofun, rfl,
    List.nodup_nil, nofun, nofun, nofun⟩
  rintro ends (hends : m.handoffOf worker = some ends)
  rw [hready.nothing] at hends
  cases hends

/-- Nobody has what only those may have who keep the job. -/
theorem Sound.unheld (h : x.Sound) (hpipe : x.opened[k]? = some pipe) (hattended : k < x.attended)
    (hkeeps : ¬Keeps x.toPickup k) : x.machine.isHeld (.writeEnd (pipe + 1)) = false := by
  refine (h.within k pipe hpipe).isHeld ?_
  rintro q n (⟨-, hmay⟩ | ⟨-, hlast, ends, hends, -⟩)
  · exact hkeeps (keeps_of_rootMay hmay)
  · have := (h.handed ends hends).1
    omega

/-- Whatever becomes of the calls, the worker and its jobs, and whichever jobs the system lets the
worker start: once the worker has taken an event after it started a job, nobody can write to that
job, unless the root has got hold of it or a call still may. A job that the root made no channel to
has heard nothing then: as long as it lives its loop waits or has ended well, and by its own moves
alone it comes to where its loop has ended well. -/
theorem a_job_that_nobody_keeps_ends_by_itself (hready : Ready m root worker)
    (hrun : Relation.ReflTransGen Step (begin m root worker parent) x)
    (hpipe : x.opened[k]? = some pipe) (hjob : x.jobs[k]? = some pid) (hattended : k < x.attended)
    (hkeeps : ¬Keeps x.toPickup k) :
    x.machine.isHeld (.writeEnd (pipe + 1)) = false ∧
      (k ∉ x.connected → ∀ p, x.machine.proc? pid = some p → p.life = .alive →
        ∃ r, Machine.Quiet p r (pipe + 1) ∧ (p.isActive = true → x.machine.EndsWell pid)) := by
  have h := sound_run (sound_begin hready) hrun
  have hfree := h.unheld hpipe hattended hkeeps
  refine ⟨hfree, ?_⟩
  intro hconnected p hp halive
  have hsilent := h.silent k pipe pid hpipe hjob hconnected
  obtain ⟨p', hp', hquiet⟩ := hsilent.quiet
  rw [hp] at hp'
  cases hp'
  obtain ⟨r, hr⟩ := hquiet halive
  exact ⟨r, hr, fun hactive => hr.endsWell hp hactive hsilent.drained hfree⟩

/-! ## A call that comes too late -/

/-- What a list of moves leads to, when nothing else happens. -/
def run? (x : Desertion) : List Move → Option Desertion
  | [] => some x
  | move :: moves => (x.next? move).bind fun x' => x'.run? moves

theorem steps_of_run? {moves : List Move} (hrun : x.run? moves = some x') :
    Relation.ReflTransGen Step x x' := by
  induction moves generalizing x with
  | nil =>
    cases hrun
    exact .refl
  | cons move moves ih =>
    obtain ⟨x₁, hmove, hrun⟩ := Option.bind_eq_some_iff.mp hrun
    exact .head (.move hmove) (ih hrun)

/-- The call that has its turn sends its request. -/
def asking : List Pickup.Move :=
  [.root .post, .root (.write (.took 5)), .root (.write (.took 19))]

/-- The worker carries a request out, and its reply is on its way. -/
def carryingOut : List Pickup.Move :=
  Pickup.hearing 19 ++
    [.make, .worker .post, .worker (.write (.took 5)), .worker (.write (.took 25))]

/-- The reply comes to the call that has its turn. -/
def receiving : List Pickup.Move := [.up (.read 5), .up (.read 25), .up .deliver, .receive]

/-- A call comes to its deadline before it has its reply; the next one throws that reply away, and
gets its own job. -/
def tooLate : List Pickup.Move :=
  List.flatten [Pickup.hearing 9, [.worker (.assume (.ok ())), .root (.call .mapRoot),
    .root (.grant 0)], asking, carryingOut, [.root .expire, .root (.call .unmapped),
    .root (.grant 0)], receiving, asking, carryingOut, receiving,
    [.fetch, .fetch, .connect, .greet]]

theorem ready_pair : Ready Pickup.pair 2 3 where
  grounded := {
    apart := by decide
    root := ⟨_, rfl, FdTable.single_standard⟩
    worker := ⟨_, rfl, FdTable.single_standard⟩
    behaviour := rfl
    configured := fun _ => ⟨_, rfl⟩
    fresh := by decide
    formed := fun _ _ => rfl }
  nothing := rfl

theorem the_job_of_a_late_call_ends_by_itself :
    ∃ x p r, Relation.ReflTransGen Step (begin Pickup.pair 2 3 7) x ∧ x.opened = [0, 4] ∧
      x.jobs = [4, 5] ∧ x.machine.isHeld (.writeEnd 1) = false ∧
      x.machine.isHeld (.writeEnd 5) = true ∧ x.machine.proc? 4 = some p ∧
      Machine.Quiet p r 1 ∧ x.machine.EndsWell 4 := by
  have hstarted : ((begin Pickup.pair 2 3 7).run? (tooLate.map .pickup)).map (fun x =>
      (x.opened, x.jobs, x.attended, x.connected)) = some ([0, 4], [4, 5], 1, [1]) := by
    decide +kernel
  have hcalls : ((begin Pickup.pair 2 3 7).run? (tooLate.map .pickup)).map (fun x =>
      (x.exchange.desk.holder.isNone, x.returned.map fun j => j.caller.place)) =
      some (true, [some 1]) := by
    decide +kernel
  have hprocs : ((begin Pickup.pair 2 3 7).run? (tooLate.map .pickup)).map (fun x =>
      (x.machine.isHeld (.writeEnd 5), (x.machine.proc? 4).map Proc.isActive)) =
      some (true, some true) := by
    decide +kernel
  obtain ⟨x, hx, hfound⟩ := Option.map_eq_some_iff.mp hstarted
  simp only [hx, Option.map_some, Option.some.injEq, Prod.mk.injEq] at hfound hcalls hprocs
  obtain ⟨hopened, hjobs, hattended, hconnected⟩ := hfound
  obtain ⟨p, hp, hactive⟩ := Option.map_eq_some_iff.mp hprocs.2
  have hkeeps : ¬Keeps x.toPickup 0 := by
    rintro (⟨hd, hholder, -⟩ | ⟨j, hj, hplace, -⟩)
    · rw [hholder] at hcalls
      cases hcalls.1
    · have hmem := List.mem_map_of_mem (f := fun j => j.caller.place) hj
      rw [hcalls.2, hplace] at hmem
      cases List.mem_singleton.mp hmem
  have halive : p.life = .alive := by
    unfold Proc.isActive at hactive
    simp only [Bool.and_eq_true, beq_iff_eq] at hactive
    exact hactive.1
  have hpipe : x.opened[0]? = some 0 := by
    rw [hopened]
    rfl
  have hjob : x.jobs[0]? = some 4 := by
    rw [hjobs]
    rfl
  obtain ⟨hunheld, hquiet⟩ := a_job_that_nobody_keeps_ends_by_itself ready_pair
    (steps_of_run? hx) hpipe hjob (hattended ▸ Nat.zero_lt_one) hkeeps
  obtain ⟨r, hr, hends⟩ := hquiet (by rw [hconnected]; decide) p hp halive
  exact ⟨x, p, r, steps_of_run? hx, hopened, hjobs, hunheld, hprocs.1, hp, hr, hends hactive⟩

end ProcessTree.Desertion
