import AgyProxy.Host.AccountQueue

/-!
# AgyProxy.Host.AccountQueueSpec — one process at a time on an account, in turn and apart

* `AccountLane`: what concerns one account; what happens on an account is seen on no other lane.
* `Ok`: a lane serves its first task, which waits or has the account's only process.
* `one_process_each`: **no two processes on an account**, and they come in the order of the attempts.
* `spawns_spaced`: **no burst on an account**.
* `lane_drains`: **no attempt is stuck**, whatever the other accounts do.
-/

namespace AgyProxy

open Js Lib

/-- What concerns one account. -/
structure AccountLane (P : SerialQueue SpawnTask) where
  queue : P.Store
  last : ℕ
  sleeping : Option ℕ
  /-- the runs of its processes -/
  running : List ℕ
  arrived : List SpawnTask
  served : List SpawnTask
  /-- the runs of the processes started, and when -/
  spawned : List (ℕ × ℕ)

namespace AgyEngine

variable {P : SerialQueue SpawnTask} {s s' : AgyEngine P} {a b : AccountId} {task : SpawnTask}

def lane (s : AgyEngine P) (a : AccountId) : AccountLane P where
  queue := s.accountQueues a
  last := s.lastAccountSpawnTime a
  sleeping := s.sleeping a
  running := (s.processes.filter fun p => decide (p.account = some a)).map AgyProcess.run
  arrived := (s.arrived.filter fun x => decide (x.1 = a)).map Prod.snd
  served := (s.served.filter fun x => decide (x.1 = a)).map Prod.snd
  spawned := (s.spawned.filter fun p => decide (p.account = some a)).map fun p => (p.run, p.spawnedAt)

/-! ### What happens on a lane -/

theorem lane_spawn_ne {account : Option AccountId} (h : account ≠ some b) (s : AgyEngine P) (run : ℕ) :
    (s.spawn account run).lane b = s.lane b := by
  simp [lane, spawn, List.filter_append, h]

theorem lane_spawnOn_ne (h : b ≠ a) (s : AgyEngine P) (run : ℕ) : (s.spawnOn a run).lane b = s.lane b := by
  unfold spawnOn
  rw [lane_spawn_ne fun heq => h (Option.some.inj heq).symm]
  simp [lane, h]

theorem lane_spawnOn (s : AgyEngine P) (a : AccountId) (run : ℕ) : (s.spawnOn a run).lane a =
    { s.lane a with
      last := s.clock
      running := (s.lane a).running ++ [run]
      spawned := (s.lane a).spawned ++ [(run, s.clock)] } := by
  simp [lane, spawnOn, spawn, List.filter_append]

theorem lane_finish_ne (h : b ≠ a) (s : AgyEngine P) (task : SpawnTask) : (s.finish a task).lane b = s.lane b := by
  simp [lane, finish, List.filter_append, h, Ne.symm h]

theorem lane_finish (s : AgyEngine P) (a : AccountId) (task : SpawnTask) : (s.finish a task).lane a =
    { s.lane a with queue := P.next (s.lane a).queue, served := (s.lane a).served ++ [task] } := by
  simp [lane, finish, List.filter_append]

theorem lane_enqueue_ne (h : b ≠ a) (s : AgyEngine P) (task : SpawnTask) : (s.enqueue a task).lane b = s.lane b := by
  simp [lane, enqueue, List.filter_append, h, Ne.symm h]

theorem lane_enqueue (s : AgyEngine P) (a : AccountId) (task : SpawnTask) : (s.enqueue a task).lane a =
    { s.lane a with queue := P.add (s.lane a).queue task, arrived := (s.lane a).arrived ++ [task] } := by
  simp [lane, enqueue, List.filter_append]

theorem lane_beginTask_ne (h : b ≠ a) (s : AgyEngine P) (task : SpawnTask) :
    (s.beginTask a task).lane b = s.lane b := by
  unfold beginTask
  dsimp only
  split
  · simp [lane, h]
  · exact lane_spawnOn_ne h s task.run

theorem lane_serve_ne (h : b ≠ a) (n : ℕ) (s : AgyEngine P) : (s.serve a n).lane b = s.lane b := by
  induction n generalizing s with
  | zero => rfl
  | succ n ih =>
    unfold serve
    split
    · rfl
    · next task _ =>
      split
      · rw [ih, lane_finish_ne h]
      · exact lane_beginTask_ne h s task

theorem lane_finishOn_ne (h : b ≠ a) (s : AgyEngine P) : (s.finishOn a).lane b = s.lane b := by
  unfold finishOn
  split
  · rfl
  · rw [serveAll, lane_serve_ne h, lane_finish_ne h]

@[simp] theorem clock_serve (n : ℕ) (s : AgyEngine P) : (s.serve a n).clock = s.clock := by
  induction n generalizing s with
  | zero => rfl
  | succ n ih =>
    unfold serve
    split
    · rfl
    · next task _ =>
      split
      · exact ih _
      · unfold beginTask
        dsimp only
        split <;> rfl

@[simp] theorem clock_finishOn (s : AgyEngine P) : (s.finishOn a).clock = s.clock := by
  unfold finishOn
  split
  · rfl
  · exact clock_serve _ _

end AgyEngine

/-! ### One lane -/

namespace AccountLane

variable {P : SerialQueue SpawnTask} {v : AccountLane P} {now : ℕ} {task : SpawnTask}

/-- What holds throughout. -/
structure Base (now : ℕ) (v : AccountLane P) : Prop where
  order : v.arrived = v.served ++ P.jobs v.queue
  past : v.last ≤ now
  spaced : Spaced minSpawnIntervalMs (v.spawned.map Prod.snd)
  recent : ∀ t ∈ v.spawned.map Prod.snd, t ≤ v.last

/-- The processes started are those of some of these tasks, in their order. -/
def Ran (v : AccountLane P) (tasks : List SpawnTask) : Prop :=
  List.Sublist (v.spawned.map Prod.fst) (tasks.map SpawnTask.run)

/-- Where the first task of the queue stands. -/
inductive Stage (v : AccountLane P) : Prop
  | idle (hjobs : P.jobs v.queue = []) (hsleeping : v.sleeping = none) (hrunning : v.running = [])
      (hran : v.Ran v.served)
  | sleeping {task : SpawnTask} {rest : List SpawnTask} {endsAt : ℕ} (hjobs : P.jobs v.queue = task :: rest)
      (hsleeping : v.sleeping = some endsAt) (hrunning : v.running = [])
      (hfrom : v.last + minSpawnIntervalMs ≤ endsAt) (hto : endsAt < v.last + 800) (hran : v.Ran v.served)
  | live {task : SpawnTask} {rest : List SpawnTask} (hjobs : P.jobs v.queue = task :: rest)
      (hsleeping : v.sleeping = none) (hrunning : v.running = [task.run]) (hran : v.Ran (v.served ++ [task]))

structure Ok (now : ℕ) (v : AccountLane P) : Prop where
  base : v.Base now
  stage : v.Stage

/-- Between two tasks. -/
structure Free (now : ℕ) (v : AccountLane P) : Prop where
  base : v.Base now
  sleeping : v.sleeping = none
  running : v.running = []
  ran : v.Ran v.served

theorem Ran.concat (h : v.Ran v.served) (task : SpawnTask) : v.Ran (v.served ++ [task]) := by
  unfold Ran at h ⊢
  rw [List.map_append]
  exact h.trans (List.sublist_append_left _ _)

/-- The first task is over. -/
theorem Base.finish (h : v.Base now) (hsleeping : v.sleeping = none) (hrunning : v.running = [])
    (hran : v.Ran (v.served ++ [task])) (hjobs : P.running v.queue = some task) :
    Free now { v with queue := P.next v.queue, served := v.served ++ [task] } := by
  refine ⟨⟨?_, h.past, h.spaced, h.recent⟩, hsleeping, hrunning, hran⟩
  show v.arrived = v.served ++ [task] ++ P.jobs (P.next v.queue)
  rw [h.order, P.running_some hjobs, List.append_assoc, List.singleton_append]

/-- A process starts, well after the last one. -/
theorem Free.spawn (h : v.Free now) {rest : List SpawnTask} (hjobs : P.jobs v.queue = task :: rest)
    (hlast : v.last + minSpawnIntervalMs ≤ now) :
    Ok now { v with last := now, running := v.running ++ [task.run], spawned := v.spawned ++ [(task.run, now)] } := by
  have htimes : ∀ t ∈ v.spawned.map Prod.snd, t + minSpawnIntervalMs ≤ now := fun t ht =>
    (Nat.add_le_add_right (h.base.recent t ht) _).trans hlast
  refine ⟨⟨h.base.order, Nat.le_refl now, ?_, fun t ht => ?_⟩, .live hjobs h.sleeping ?_ ?_⟩
  · rw [List.map_append, List.map_singleton]
    exact h.base.spaced.concat htimes
  · rw [List.map_append, List.map_singleton] at ht
    rcases List.mem_append.mp ht with ht | ht
    · exact (Nat.le_add_right t _).trans (htimes t ht)
    · exact (List.mem_singleton.mp ht).le
  · show v.running ++ [task.run] = [task.run]
    rw [h.running, List.nil_append]
  · show List.Sublist ((v.spawned ++ [(task.run, now)]).map Prod.fst) ((v.served ++ [task]).map SpawnTask.run)
    rw [List.map_append, List.map_append]
    exact h.ran.append (List.Sublist.refl _)

theorem Ok.later (h : v.Ok now) {later : ℕ} (hle : now ≤ later) : v.Ok later :=
  ⟨⟨h.base.order, h.base.past.trans hle, h.base.spaced, h.base.recent⟩, h.stage⟩

end AccountLane

/-! ### All lanes -/

namespace AgyEngine

open AccountLane

variable {P : SerialQueue SpawnTask} {s s' : AgyEngine P} {a b : AccountId} {task : SpawnTask}

/-- **What a task does first** keeps its lane in order. -/
theorem beginTask_ok (h : (s.lane a).Free s.clock) {rest : List SpawnTask}
    (hjobs : P.jobs (s.lane a).queue = task :: rest) :
    ((s.beginTask a task).lane a).Ok (s.beginTask a task).clock := by
  have hpast : s.lastAccountSpawnTime a ≤ s.clock := h.base.past
  have hjitter := task.jitter.isLt
  have hinterval : minSpawnIntervalMs = 500 := rfl
  unfold beginTask
  dsimp only
  split
  · next hearly =>
    have hlane : ({ s with sleeping := Function.update s.sleeping a (some (s.clock +
        (minSpawnIntervalMs + task.jitter - (s.clock - s.lastAccountSpawnTime a)))) } : AgyEngine P).lane a =
        { s.lane a with sleeping := some (s.clock +
          (minSpawnIntervalMs + task.jitter - (s.clock - s.lastAccountSpawnTime a))) } := by
      simp [lane]
    rw [hlane]
    refine ⟨⟨h.base.order, h.base.past, h.base.spaced, h.base.recent⟩, .sleeping hjobs rfl h.running ?_ ?_ h.ran⟩
    · show s.lastAccountSpawnTime a + minSpawnIntervalMs ≤ _
      omega
    · show _ < s.lastAccountSpawnTime a + 800
      omega
  · next hlate =>
    rw [lane_spawnOn]
    refine h.spawn hjobs ?_
    show s.lastAccountSpawnTime a + minSpawnIntervalMs ≤ s.clock
    omega

/-- **The tasks a queue goes on with**: those whose callers have left, and the next. -/
theorem serve_ok {n : ℕ} (h : (s.lane a).Free s.clock) (hn : (P.jobs (s.accountQueues a)).length ≤ n) :
    ((s.serve a n).lane a).Ok (s.serve a n).clock := by
  induction n generalizing s with
  | zero => exact ⟨h.base, .idle (List.length_eq_zero_iff.mp (Nat.le_zero.mp hn)) h.sleeping h.running h.ran⟩
  | succ n ih =>
    unfold serve
    split
    · next hnone => exact ⟨h.base, .idle (P.running_none.mp hnone) h.sleeping h.running h.ran⟩
    · next task hsome =>
      have hjobs := P.running_some hsome
      split
      · have hfree : ((s.finish a task).lane a).Free s.clock := by
          rw [lane_finish]
          exact h.base.finish h.sleeping h.running (h.ran.concat task) hsome
        refine ih hfree ?_
        show (P.jobs (Function.update s.accountQueues a (P.next (s.accountQueues a)) a)).length ≤ n
        rw [Function.update_self]
        rw [hjobs, List.length_cons] at hn
        exact Nat.le_of_succ_le_succ hn
      · exact beginTask_ok h hjobs

/-- **A task is over**, with or without a process. -/
theorem finishOn_ok (hbase : (s.lane a).Base s.clock) (hsleeping : (s.lane a).sleeping = none)
    (hrunning : (s.lane a).running = []) (hran : (s.lane a).Ran ((s.lane a).served ++ [task]))
    (hsome : P.running (s.accountQueues a) = some task) :
    ((s.finishOn a).lane a).Ok (s.finishOn a).clock := by
  unfold finishOn
  rw [hsome]
  refine serve_ok ?_ (Nat.le_refl _)
  rw [lane_finish]
  exact hbase.finish hsleeping hrunning hran hsome

/-- A lane that is as it was. -/
theorem ok_of_eq (h : (s.lane b).Ok s.clock) (hlane : s'.lane b = s.lane b) (hclock : s'.clock = s.clock) :
    (s'.lane b).Ok s'.clock := by
  rw [hlane, hclock]
  exact h

/-- **A new attempt** begins when it is alone on its account, and waits behind the others if not. -/
theorem enqueue_ok (h : (s.lane a).Ok s.clock) (task : SpawnTask) :
    ((s.attempt (some a) task).lane a).Ok (s.attempt (some a) task).clock := by
  obtain ⟨hbase, hstage⟩ := h
  have hbase' : ((s.enqueue a task).lane a).Base s.clock := by
    rw [lane_enqueue]
    refine ⟨?_, hbase.past, hbase.spaced, hbase.recent⟩
    show (s.lane a).arrived ++ [task] = (s.lane a).served ++ P.jobs (P.add (s.lane a).queue task)
    rw [P.jobs_add, hbase.order, List.append_assoc]
  have hbehind : ∀ {first : SpawnTask} {rest : List SpawnTask}, P.jobs (s.lane a).queue = first :: rest →
      P.jobs (P.add (s.lane a).queue task) = first :: (rest ++ [task]) ∧
        s.attempt (some a) task = s.enqueue a task := by
    intro first rest hfirst
    have hsome : P.running (s.accountQueues a) = some first := by
      rw [P.running_eq]
      exact congrArg List.head? hfirst
    refine ⟨by rw [P.jobs_add, hfirst, List.cons_append], ?_⟩
    simp [attempt, hsome]
  cases hstage with
  | idle hidle hsleeping hrunning hran =>
    have hnone : P.running (s.accountQueues a) = none := P.running_none.mpr hidle
    have heq : s.attempt (some a) task = (s.enqueue a task).serveAll a := by simp [attempt, hnone]
    rw [heq]
    refine serve_ok ⟨hbase', ?_, ?_, ?_⟩ (Nat.le_refl _)
    · rw [lane_enqueue]
      exact hsleeping
    · rw [lane_enqueue]
      exact hrunning
    · rw [lane_enqueue]
      exact hran
  | sleeping hfirst hsleeping hrunning hfrom hto hran =>
    obtain ⟨hjobs, heq⟩ := hbehind hfirst
    rw [heq]
    refine ⟨hbase', ?_⟩
    rw [lane_enqueue]
    exact .sleeping hjobs hsleeping hrunning hfrom hto hran
  | live hfirst hsleeping hrunning hran =>
    obtain ⟨hjobs, heq⟩ := hbehind hfirst
    rw [heq]
    refine ⟨hbase', ?_⟩
    rw [lane_enqueue]
    exact .live hjobs hsleeping hrunning hran

theorem attempt_ok (hs : ∀ a, (s.lane a).Ok s.clock) (account : Option AccountId) (task : SpawnTask) (b : AccountId) :
    ((s.attempt account task).lane b).Ok (s.attempt account task).clock := by
  cases account with
  | none =>
    unfold attempt
    dsimp only
    split
    · exact hs b
    · exact ok_of_eq (hs b) (lane_spawn_ne (by simp) s task.run) rfl
  | some a =>
    by_cases hb : b = a
    · subst hb
      exact enqueue_ok (hs b) task
    · unfold attempt
      dsimp only
      split
      · exact ok_of_eq (hs b) ((lane_serve_ne hb _ _).trans (lane_enqueue_ne hb s task)) (clock_serve _ _)
      · exact ok_of_eq (hs b) (lane_enqueue_ne hb s task) rfl

theorem lane_woken_ne (h : b ≠ a) (s : AgyEngine P) :
    ({ s with sleeping := Function.update s.sleeping a none } : AgyEngine P).lane b = s.lane b := by
  simp [lane, h]

theorem wake_ok (hs : ∀ a, (s.lane a).Ok s.clock) {endsAt : ℕ} (htask : P.running (s.accountQueues a) = some task)
    (hsleeping : s.sleeping a = some endsAt) (hdue : endsAt ≤ s.clock ∨ s.aborted task.run = true) (b : AccountId) :
    ((s.wake a task).lane b).Ok (s.wake a task).clock := by
  unfold wake
  dsimp only
  by_cases hb : b = a
  · subst hb
    obtain ⟨hbase, hstage⟩ := hs b
    have hlane : ({ s with sleeping := Function.update s.sleeping b none } : AgyEngine P).lane b =
        { s.lane b with sleeping := none } := by
      simp [lane]
    have hbase' : ({ s.lane b with sleeping := none } : AccountLane P).Base s.clock :=
      ⟨hbase.order, hbase.past, hbase.spaced, hbase.recent⟩
    cases hstage with
    | idle _ hno _ _ => exact absurd (hno.symm.trans hsleeping) (Option.some_ne_none endsAt).symm
    | live _ hno _ _ => exact absurd (hno.symm.trans hsleeping) (Option.some_ne_none endsAt).symm
    | @sleeping first rest endsAt' hfirst hsome hrunning hfrom hto hran =>
      obtain rfl : endsAt' = endsAt := Option.some.inj (hsome.symm.trans hsleeping)
      split
      · refine finishOn_ok ?_ ?_ ?_ ?_ htask
        · rw [hlane]
          exact hbase'
        · rw [hlane]
        · rw [hlane]
          exact hrunning
        · rw [hlane]
          exact hran.concat task
      · next hstays =>
        -- the wait was not cut short
        have htime : endsAt' ≤ s.clock := by
          refine hdue.resolve_right fun habort => hstays ?_
          show (s.superseded task.run || s.aborted task.run) = true
          rw [habort, Bool.or_true]
        rw [lane_spawnOn, hlane]
        refine Free.spawn ⟨hbase', rfl, hrunning, hran⟩ (P.running_some htask) ?_
        exact hfrom.trans htime
  · split
    · exact ok_of_eq (hs b) ((lane_finishOn_ne hb _).trans (lane_woken_ne hb s)) (clock_finishOn _)
    · exact ok_of_eq (hs b) ((lane_spawnOn_ne hb _ _).trans (lane_woken_ne hb s)) rfl

/-- A list without one of its elements. -/
theorem filter_eraseIdx {α : Type} {l : List α} {i : ℕ} {x : α} (h : l[i]? = some x) (q : α → Bool) :
    (q x = false → (l.eraseIdx i).filter q = l.filter q) ∧
      (q x = true → (l.filter q).length = ((l.eraseIdx i).filter q).length + 1) := by
  induction l generalizing i with
  | nil => simp at h
  | cons y l ih =>
    cases i with
    | zero =>
      obtain rfl : y = x := by simpa using h
      rw [List.eraseIdx_cons_zero]
      exact ⟨fun hq => (List.filter_cons_of_neg (by simp [hq])).symm, fun hq => by rw [List.filter_cons_of_pos hq]; rfl⟩
    | succ i =>
      obtain ⟨hsame, hone⟩ := ih (by simpa using h)
      rw [List.eraseIdx_cons_succ]
      by_cases hy : q y = true
      · rw [List.filter_cons_of_pos hy, List.filter_cons_of_pos hy]
        exact ⟨fun hq => congrArg (y :: ·) (hsame hq), fun hq => congrArg (· + 1) (hone hq)⟩
      · rw [List.filter_cons_of_neg hy, List.filter_cons_of_neg hy]
        exact ⟨hsame, hone⟩

theorem exit_ok (hs : ∀ a, (s.lane a).Ok s.clock) {i : ℕ} {p : AgyProcess} (hp : s.processes[i]? = some p)
    (b : AccountId) : ((s.exit i p).lane b).Ok (s.exit i p).clock := by
  unfold exit
  dsimp only
  have hothers : p.account ≠ some b →
      ({ s with processes := s.processes.eraseIdx i } : AgyEngine P).lane b = s.lane b := by
    intro hne
    have hsame := (filter_eraseIdx hp fun p => decide (p.account = some b)).1 (decide_eq_false hne)
    simp only [lane, hsame]
  cases haccount : p.account with
  | none => exact ok_of_eq (hs b) (hothers (by rw [haccount]; simp)) rfl
  | some a =>
    by_cases hb : b = a
    · subst hb
      obtain ⟨hbase, hstage⟩ := hs b
      have hone := (filter_eraseIdx hp fun p => decide (p.account = some b)).2 (decide_eq_true haccount)
      have hlane : ({ s with processes := s.processes.eraseIdx i } : AgyEngine P).lane b =
          { s.lane b with
            running := ((s.processes.eraseIdx i).filter fun p => decide (p.account = some b)).map AgyProcess.run } :=
        rfl
      have hlength : (s.lane b).running.length =
          ((s.processes.eraseIdx i).filter fun p => decide (p.account = some b)).length + 1 := by
        rw [← hone]
        exact List.length_map _
      cases hstage with
      | idle _ _ hrunning _ => rw [hrunning] at hlength; exact absurd hlength (by simp)
      | sleeping _ _ hrunning _ _ _ => rw [hrunning] at hlength; exact absurd hlength (by simp)
      | @live first rest hfirst hsleeping hrunning hran =>
        have hempty : ((s.processes.eraseIdx i).filter fun p => decide (p.account = some b)) = [] := by
          rw [hrunning, List.length_singleton] at hlength
          exact List.length_eq_zero_iff.mp (by omega)
        rw [hempty] at hlane
        have htask : P.running (s.accountQueues b) = some first := by
          rw [P.running_eq]
          exact congrArg List.head? hfirst
        dsimp only
        refine finishOn_ok ?_ ?_ ?_ ?_ htask
        · rw [hlane]
          exact ⟨hbase.order, hbase.past, hbase.spaced, hbase.recent⟩
        · rw [hlane]
          exact hsleeping
        · rw [hlane]
          rfl
        · rw [hlane]
          exact hran
    · refine ok_of_eq (hs b) ((lane_finishOn_ne hb _).trans (hothers ?_)) (clock_finishOn _)
      rw [haccount]
      exact fun heq => hb (Option.some.inj heq).symm

theorem step_ok (s : AgyEngine P) (c : SpawnAction) (s' : AgyEngine P) (hs : ∀ a, (s.lane a).Ok s.clock)
    (h : step s c = some s') : ∀ a, (s'.lane a).Ok s'.clock := by
  cases c with
  | tick now =>
    obtain ⟨hle, rfl⟩ := Option.ite_none_right_eq_some.mp h |>.imp_right Option.some.inj
    exact fun a => (hs a).later hle
  | attempt account task =>
    cases h
    exact attempt_ok hs account task
  | supersede run =>
    cases h
    exact hs
  | abort run =>
    cases h
    exact hs
  | wake a =>
    simp only [step] at h
    split at h
    · next task endsAt htask hsleeping =>
      obtain ⟨hdue, rfl⟩ := Option.ite_none_right_eq_some.mp h |>.imp_right Option.some.inj
      exact wake_ok hs htask hsleeping hdue
    · cases h
  | exit i =>
    obtain ⟨p, hp, rfl⟩ := Option.map_eq_some_iff.mp h
    exact exit_ok hs hp

theorem exec_ok {now : ℕ} {as : List SpawnAction} (h : exec step (init now : AgyEngine P) as = some s) (a : AccountId) :
    (s.lane a).Ok s.clock := by
  have hinit : ∀ a, ((init now : AgyEngine P).lane a).Ok now := fun a =>
    ⟨⟨P.jobs_fresh.symm, Nat.zero_le now, List.Pairwise.nil, fun _ ht => absurd ht List.not_mem_nil⟩,
      .idle P.jobs_fresh rfl rfl (List.Sublist.refl _)⟩
  exact exec_invariant' step_ok as _ _ hinit h a

/-! ### Callers that leave -/

/-- What a step may start: processes of callers that are still there. -/
structure Starts (s s' : AgyEngine P) : Prop where
  spawned : ∃ new, s'.spawned = s.spawned ++ new ∧ ∀ p ∈ new, s.gone p.run = false
  gone : ∀ run, s.gone run = true → s'.gone run = true

theorem Starts.refl (s : AgyEngine P) : Starts s s := ⟨⟨[], by simp⟩, fun _ h => h⟩

theorem Starts.of_eq (hspawned : s'.spawned = s.spawned) (hsuperseded : s'.superseded = s.superseded)
    (haborted : s'.aborted = s.aborted) : Starts s s' := by
  refine ⟨⟨[], by simp [hspawned]⟩, fun run h => ?_⟩
  unfold AgyEngine.gone at h ⊢
  rw [hsuperseded, haborted]
  exact h

theorem Starts.trans {t : AgyEngine P} (h : Starts s t) (h' : Starts t s') : Starts s s' := by
  obtain ⟨⟨new, hnew, hthere⟩, hgone⟩ := h
  obtain ⟨⟨new', hnew', hthere'⟩, hgone'⟩ := h'
  refine ⟨⟨new ++ new', by rw [hnew', hnew, List.append_assoc], fun p hp => ?_⟩, fun run h => hgone' run (hgone run h)⟩
  rcases List.mem_append.mp hp with hp | hp
  · exact hthere p hp
  · by_contra hno
    exact absurd (hgone p.run (Bool.eq_true_of_not_eq_false hno)) (by rw [hthere' p hp]; exact Bool.false_ne_true)

theorem starts_spawnOn (s : AgyEngine P) (a : AccountId) {run : ℕ} (h : s.gone run = false) :
    Starts s (s.spawnOn a run) := by
  refine ⟨⟨[⟨some a, run, s.clock⟩], rfl, fun p hp => ?_⟩, fun _ h => h⟩
  rw [List.mem_singleton.mp hp]
  exact h

theorem starts_serve (n : ℕ) (s : AgyEngine P) : Starts s (s.serve a n) := by
  induction n generalizing s with
  | zero => exact .refl s
  | succ n ih =>
    unfold serve
    split
    · exact .refl s
    · next task _ =>
      split
      · have hfinish : Starts s (s.finish a task) := .of_eq rfl rfl rfl
        exact hfinish.trans (ih _)
      · next hthere =>
        unfold beginTask
        dsimp only
        split
        · exact .of_eq rfl rfl rfl
        · exact starts_spawnOn s a (Bool.eq_false_of_not_eq_true hthere)

theorem starts_finishOn (s : AgyEngine P) (a : AccountId) : Starts s (s.finishOn a) := by
  unfold finishOn
  split
  · exact .refl s
  · next task _ =>
    have hfinish : Starts s (s.finish a task) := .of_eq rfl rfl rfl
    exact hfinish.trans (starts_serve _ _)

theorem starts_step {c : SpawnAction} (h : step s c = some s') : Starts s s' := by
  cases c with
  | tick now =>
    obtain ⟨-, rfl⟩ := Option.ite_none_right_eq_some.mp h |>.imp_right Option.some.inj
    exact .of_eq rfl rfl rfl
  | attempt account task =>
    cases h
    unfold attempt
    cases account with
    | none =>
      dsimp only
      split
      · exact .refl s
      · next hthere =>
        refine ⟨⟨[⟨none, task.run, s.clock⟩], rfl, fun p hp => ?_⟩, fun _ h => h⟩
        rw [List.mem_singleton.mp hp]
        exact Bool.eq_false_of_not_eq_true hthere
    | some a =>
      have henqueue : Starts s (s.enqueue a task) := .of_eq rfl rfl rfl
      dsimp only
      split
      · exact henqueue.trans (starts_serve _ _)
      · exact henqueue
  | supersede run =>
    cases h
    refine ⟨⟨[], by simp⟩, fun r hr => ?_⟩
    by_cases heq : r = run
    · simp [gone, heq]
    · simpa [gone, heq] using hr
  | abort run =>
    cases h
    refine ⟨⟨[], by simp⟩, fun r hr => ?_⟩
    by_cases heq : r = run
    · simp [gone, heq]
    · simpa [gone, heq] using hr
  | wake a =>
    simp only [step] at h
    split at h
    · next task endsAt _ _ =>
      obtain ⟨-, rfl⟩ := Option.ite_none_right_eq_some.mp h |>.imp_right Option.some.inj
      have hwoken : Starts s { s with sleeping := Function.update s.sleeping a none } := .of_eq rfl rfl rfl
      unfold wake
      dsimp only
      split
      · exact hwoken.trans (starts_finishOn _ a)
      · next hthere => exact hwoken.trans (starts_spawnOn _ a (Bool.eq_false_of_not_eq_true hthere))
    · cases h
  | exit i =>
    obtain ⟨p, -, rfl⟩ := Option.map_eq_some_iff.mp h
    have herase : Starts s { s with processes := s.processes.eraseIdx i } := .of_eq rfl rfl rfl
    unfold exit
    dsimp only
    cases p.account with
    | none => exact herase
    | some a => exact herase.trans (starts_finishOn _ a)

theorem starts_exec {as : List SpawnAction} (h : exec step s as = some s') : Starts s s' :=
  exec_invariant' (I := Starts s) (fun _ _ _ ht hstep => ht.trans (starts_step hstep)) as s s' (.refl s) h

/-! ### The results -/

/-- **One process at a time** on an account, after any run: the attempts are served in the order they came, none is
lost, the processes follow that order, and a caller that has left gets none any more. -/
theorem one_process_each {now : ℕ} {as bs : List SpawnAction}
    (h : exec step (init now : AgyEngine P) as = some s) (h' : exec step s bs = some s') (a : AccountId) :
    (s.processes.countP fun p => decide (p.account = some a)) ≤ 1 ∧
    (s.lane a).arrived = (s.lane a).served ++ P.jobs (s.accountQueues a) ∧
    List.Sublist ((s.lane a).spawned.map Prod.fst) ((s.lane a).arrived.map SpawnTask.run) ∧
    ∀ run, s.gone run = true →
      (s'.spawned.filter fun p => decide (p.run = run)) = s.spawned.filter fun p => decide (p.run = run) := by
  obtain ⟨hbase, hstage⟩ := exec_ok h a
  have hcount : (s.processes.countP fun p => decide (p.account = some a)) = (s.lane a).running.length := by
    rw [List.countP_eq_length_filter]
    exact (List.length_map _).symm
  have hserved : List.Sublist ((s.lane a).served.map SpawnTask.run) ((s.lane a).arrived.map SpawnTask.run) := by
    rw [hbase.order, List.map_append]
    exact List.sublist_append_left _ _
  rw [hcount]
  refine ⟨?_, hbase.order, ?_, fun run hrun => ?_⟩
  · cases hstage with
    | idle _ _ hrunning _ => exact hrunning ▸ Nat.zero_le 1
    | sleeping _ _ hrunning _ _ _ => exact hrunning ▸ Nat.zero_le 1
    | live _ _ hrunning _ => exact hrunning ▸ Nat.le_refl 1
  · cases hstage with
    | idle _ _ _ hran => exact hran.trans hserved
    | sleeping _ _ _ _ _ hran => exact hran.trans hserved
    | @live task rest hjobs _ _ hran =>
      refine hran.trans ?_
      rw [hbase.order, hjobs, List.map_append, List.map_append, List.map_cons]
      exact (List.Sublist.refl _).append (List.singleton_sublist.mpr List.mem_cons_self)
  · obtain ⟨new, hnew, hthere⟩ := (starts_exec h').spawned
    have hnone : (new.filter fun p => decide (p.run = run)) = [] := by
      refine List.filter_eq_nil_iff.mpr fun p hp heq => ?_
      have hstill := hthere p hp
      rw [of_decide_eq_true heq, hrun] at hstill
      exact absurd hstill.symm Bool.false_ne_true
    rw [hnew, List.filter_append, hnone, List.append_nil]

def accountA : AccountId := ⟨js "a", by decide⟩

/-- Three attempts on one account, the second of a caller that leaves. -/
def threeAttempts : List SpawnAction :=
  [.attempt (some accountA) ⟨0, 0⟩, .attempt (some accountA) ⟨1, 299⟩, .attempt (some accountA) ⟨2, 0⟩, .abort 1]

/-- The first process exits, and the third attempt waits out the spacing. -/
def theirProcesses : List SpawnAction := [.exit 0, .tick 1500, .wake accountA]

/-- The second attempt gets no process. -/
theorem one_process_each_threeAttempts :
    ∃ s s', exec step (init 1000 : AgyEngine (.list SpawnTask)) threeAttempts = some s ∧
      exec step s theirProcesses = some s' ∧ (s'.spawned.filter fun p => decide (p.run = 1)) = [] := by
  obtain ⟨s, hs, hstate⟩ := Option.map_eq_some_iff.mp
    (show (exec step (init 1000 : AgyEngine (.list SpawnTask)) threeAttempts).map
      (fun s => (s.gone 1, s.spawned.filter fun p => decide (p.run = 1),
        ((exec step s theirProcesses).map fun s => s.spawned.length))) = some (true, [], some 2) by decide +kernel)
  simp only [Prod.mk.injEq] at hstate
  obtain ⟨hgone, hnone, hthen⟩ := hstate
  obtain ⟨s', hs', -⟩ := Option.map_eq_some_iff.mp hthen
  obtain ⟨-, -, -, hleft⟩ := one_process_each hs hs' accountA
  exact ⟨s, s', hs, hs', (hleft 1 hgone).trans hnone⟩

/-- **No burst**: no `n` half seconds see more than `n` processes start on an account. -/
theorem spawns_spaced {now : ℕ} {as : List SpawnAction} (h : exec step (init now : AgyEngine P) as = some s)
    (a : AccountId) (n t : ℕ) :
    (s.spawned.countP fun p => decide (p.account = some a ∧ t ≤ p.spawnedAt ∧ p.spawnedAt < t + n * 500)) ≤ n := by
  have hbounded : (inWindow (n * 500) t ((s.lane a).spawned.map Prod.snd)).length ≤ n :=
    (exec_ok h a).base.spaced.bounded n t
  have hcount : (s.spawned.countP fun p =>
      decide (p.account = some a ∧ t ≤ p.spawnedAt ∧ p.spawnedAt < t + n * 500)) =
      (inWindow (n * 500) t ((s.lane a).spawned.map Prod.snd)).length := by
    unfold inWindow lane
    rw [← List.countP_eq_length_filter, List.countP_map, List.countP_map, List.countP_filter]
    refine List.countP_congr fun p _ => ?_
    simp only [Function.comp_apply, Bool.and_eq_true, decide_eq_true_eq]
    exact and_comm
  exact hcount ▸ hbounded

/-- The bound is met. -/
theorem spawns_spaced_threeAttempts :
    ∃ s, exec step (init 1000 : AgyEngine (.list SpawnTask)) (threeAttempts ++ theirProcesses) = some s ∧
      (s.spawned.countP fun p =>
        decide (p.account = some accountA ∧ 1000 ≤ p.spawnedAt ∧ p.spawnedAt < 1000 + 2 * 500)) = 2 := by
  obtain ⟨s, hs, hcount⟩ := Option.map_eq_some_iff.mp
    (show (exec step (init 1000 : AgyEngine (.list SpawnTask)) (threeAttempts ++ theirProcesses)).map
      (fun s => s.spawned.countP fun p =>
        decide (p.account = some accountA ∧ 1000 ≤ p.spawnedAt ∧ p.spawnedAt < 1000 + 2 * 500)) = some 2
      by decide +kernel)
  exact ⟨s, hs, le_antisymm (spawns_spaced hs accountA 2 1000) hcount.ge⟩

/-- Time passes, a wait of the account ends or one of its processes exits. -/
def GoesOn (s : AgyEngine P) (a : AccountId) : SpawnAction → Prop
  | .tick _ => True
  | .wake b => b = a
  | .exit i => ∃ p, s.processes[i]? = some p ∧ p.account = some a
  | _ => False

/-- Nothing new on an account, and nothing at all on the others. -/
structure Keeps (a : AccountId) (s s' : AgyEngine P) : Prop where
  arrived : (s'.lane a).arrived = (s.lane a).arrived
  jobs : (P.jobs (s'.accountQueues a)).length ≤ (P.jobs (s.accountQueues a)).length
  others : ∀ b, b ≠ a → s'.lane b = s.lane b
  gone : ∀ run, s'.gone run = s.gone run

theorem Keeps.refl (a : AccountId) (s : AgyEngine P) : Keeps a s s := ⟨rfl, Nat.le_refl _, fun _ _ => rfl, fun _ => rfl⟩

theorem Keeps.trans {t : AgyEngine P} (h : Keeps a s t) (h' : Keeps a t s') : Keeps a s s' :=
  ⟨h'.arrived.trans h.arrived, h'.jobs.trans h.jobs, fun b hb => (h'.others b hb).trans (h.others b hb),
    fun run => (h'.gone run).trans (h.gone run)⟩

theorem keeps_spawnOn (s : AgyEngine P) (a : AccountId) (run : ℕ) : Keeps a s (s.spawnOn a run) :=
  ⟨by rw [lane_spawnOn], Nat.le_refl _, fun _ hb => lane_spawnOn_ne hb s run, fun _ => rfl⟩

theorem keeps_finish (htask : P.running (s.accountQueues a) = some task) : Keeps a s (s.finish a task) ∧
    (P.jobs ((s.finish a task).accountQueues a)).length < (P.jobs (s.accountQueues a)).length := by
  have hjobs : (P.jobs ((s.finish a task).accountQueues a)).length < (P.jobs (s.accountQueues a)).length := by
    show (P.jobs (Function.update s.accountQueues a (P.next (s.accountQueues a)) a)).length < _
    rw [Function.update_self, P.running_some htask]
    exact Nat.lt_succ_self _
  exact ⟨⟨by rw [lane_finish], hjobs.le, fun _ hb => lane_finish_ne hb s task, fun _ => rfl⟩, hjobs⟩

theorem keeps_serve (n : ℕ) (s : AgyEngine P) : Keeps a s (s.serve a n) := by
  induction n generalizing s with
  | zero => exact .refl a s
  | succ n ih =>
    unfold serve
    split
    · exact .refl a s
    · next task htask =>
      split
      · exact (keeps_finish htask).1.trans (ih _)
      · refine ⟨?_, ?_, fun b hb => lane_beginTask_ne hb s task, fun run => ?_⟩ <;> unfold beginTask <;> dsimp only <;>
          split
        · simp [lane]
        · rw [lane_spawnOn]
        · exact Nat.le_refl _
        · exact Nat.le_refl _
        · rfl
        · rfl

theorem keeps_finishOn (htask : P.running (s.accountQueues a) = some task) : Keeps a s (s.finishOn a) ∧
    (P.jobs ((s.finishOn a).accountQueues a)).length < (P.jobs (s.accountQueues a)).length := by
  obtain ⟨hkeeps, hless⟩ := keeps_finish htask
  have hserve : Keeps a (s.finish a task) ((s.finish a task).serveAll a) := keeps_serve _ _
  have heq : s.finishOn a = (s.finish a task).serveAll a := by simp [finishOn, htask]
  rw [heq]
  exact ⟨hkeeps.trans hserve, hserve.jobs.trans_lt hless⟩

/-- A process of the account exits. -/
theorem exit_advances (hs : ∀ a, (s.lane a).Ok s.clock) (hlive : (s.lane a).running ≠ []) :
    ∃ c s', step s c = some s' ∧ GoesOn s a c ∧ Keeps a s s' ∧ s'.clock = s.clock ∧
      (P.jobs (s'.accountQueues a)).length < (P.jobs (s.accountQueues a)).length := by
  have hsome : (s.processes.filter fun p => decide (p.account = some a)) ≠ [] := fun hnil =>
    hlive (congrArg (List.map AgyProcess.run) hnil)
  obtain ⟨p, hp⟩ := List.exists_mem_of_ne_nil _ hsome
  obtain ⟨hmem, haccount⟩ := List.mem_filter.mp hp
  have haccount : p.account = some a := of_decide_eq_true haccount
  obtain ⟨i, hi⟩ := List.getElem?_of_mem hmem
  obtain ⟨-, hstage⟩ := hs a
  obtain ⟨task, htask⟩ : ∃ task, P.running (s.accountQueues a) = some task := by
    cases hstage with
    | idle _ _ hrunning _ => exact absurd hrunning hlive
    | sleeping _ _ hrunning _ _ _ => exact absurd hrunning hlive
    | @live task rest hjobs _ _ _ => exact ⟨task, (P.running_eq _).trans (congrArg List.head? hjobs)⟩
  have herase : Keeps a s { s with processes := s.processes.eraseIdx i } := by
    refine ⟨rfl, Nat.le_refl _, fun b hb => ?_, fun _ => rfl⟩
    have hne : p.account ≠ some b := fun heq => hb (Option.some.inj (heq.symm.trans haccount))
    have hsame := (filter_eraseIdx hi fun p => decide (p.account = some b)).1 (decide_eq_false hne)
    simp only [lane, hsame]
  have hexit : s.exit i p = ({ s with processes := s.processes.eraseIdx i } : AgyEngine P).finishOn a := by
    simp [exit, haccount]
  have hfinish : Keeps a { s with processes := s.processes.eraseIdx i } (s.exit i p) ∧
      (P.jobs ((s.exit i p).accountQueues a)).length < (P.jobs (s.accountQueues a)).length := by
    rw [hexit]
    exact keeps_finishOn htask
  refine ⟨.exit i, s.exit i p, ?_, ⟨p, hi, haccount⟩, herase.trans hfinish.1, ?_, hfinish.2⟩
  · simp [step, hi]
  · rw [hexit, clock_finishOn]

/-- **The first task of a lane** is over after a wait and the exit of a process at most. -/
theorem first_advances (hs : ∀ a, (s.lane a).Ok s.clock) (hjobs : P.jobs (s.accountQueues a) ≠ []) :
    ∃ cs s', exec step s cs = some s' ∧ Every step (fun s c => GoesOn s a c) s cs ∧ Keeps a s s' ∧
      s'.clock ≤ s.clock + 800 ∧
      (P.jobs (s'.accountQueues a)).length < (P.jobs (s.accountQueues a)).length := by
  have hlane := hs a
  cases hlane.stage with
  | idle hidle _ _ _ => exact absurd hidle hjobs
  | live _ _ hrunning _ =>
    obtain ⟨c, s', hstep, hgoes, hkeeps, hclock, hless⟩ := exit_advances hs (a := a) (by rw [hrunning]; simp)
    refine ⟨[c], s', by simp [exec, hstep], ⟨hgoes, fun _ _ => trivial⟩, hkeeps, ?_, hless⟩
    exact hclock.le.trans (Nat.le_add_right _ _)
  | @sleeping task rest endsAt hfirst hsleeping hrunning hfrom hto hran =>
    have htask : P.running (s.accountQueues a) = some task := (P.running_eq _).trans (congrArg List.head? hfirst)
    have hpast : (s.lane a).last ≤ s.clock := hlane.base.past
    -- time passes until the wait is over
    obtain ⟨later, hlater, hdue, hsoon⟩ : ∃ later, s.clock ≤ later ∧ endsAt ≤ later ∧ later ≤ s.clock + 800 :=
      ⟨max s.clock endsAt, le_max_left _ _, le_max_right _ _, by omega⟩
    have htick : step s (.tick later) = some { s with clock := later } := if_pos hlater
    have hwake : step ({ s with clock := later } : AgyEngine P) (.wake a) =
        some (({ s with clock := later } : AgyEngine P).wake a task) := by
      have hsleep : s.sleeping a = some endsAt := hsleeping
      simp [step, htask, hsleep, hdue]
    have hoks : ∀ b, ((({ s with clock := later } : AgyEngine P).wake a task).lane b).Ok _ :=
      step_ok _ _ _ (step_ok _ _ _ hs htick) hwake
    have hwoken : Keeps a s { s with clock := later, sleeping := Function.update s.sleeping a none } :=
      ⟨rfl, Nat.le_refl _, fun b hb => by simp [lane, hb], fun _ => rfl⟩
    by_cases hgone : s.gone task.run = true
    · have heq : ({ s with clock := later } : AgyEngine P).wake a task =
          ({ s with clock := later, sleeping := Function.update s.sleeping a none } : AgyEngine P).finishOn a :=
        if_pos hgone
      obtain ⟨hkeeps, hless⟩ :=
        keeps_finishOn (s := { s with clock := later, sleeping := Function.update s.sleeping a none }) htask
      rw [← heq] at hkeeps hless
      refine ⟨[.tick later, .wake a], _, ?_, ⟨trivial, fun t ht => ⟨rfl, fun _ _ => trivial⟩⟩, hwoken.trans hkeeps,
        ?_, hless⟩
      · simp [exec, htick, hwake]
      · rw [heq, clock_finishOn]
        exact hsoon
    · have heq : ({ s with clock := later } : AgyEngine P).wake a task =
          ({ s with clock := later, sleeping := Function.update s.sleeping a none } : AgyEngine P).spawnOn a task.run :=
        if_neg hgone
      have hkeeps : Keeps a { s with clock := later, sleeping := Function.update s.sleeping a none }
          (({ s with clock := later } : AgyEngine P).wake a task) := heq ▸ keeps_spawnOn _ a task.run
      have hlive : ((({ s with clock := later } : AgyEngine P).wake a task).lane a).running ≠ [] := by
        rw [heq, lane_spawnOn]
        simp
      obtain ⟨c, s', hstep, hgoes, hkeeps', hclock, hless⟩ := exit_advances hoks hlive
      refine ⟨[.tick later, .wake a, c], s', ?_, ⟨trivial, fun t ht => ⟨rfl, fun u hu => ⟨?_, fun _ _ => trivial⟩⟩⟩,
        (hwoken.trans hkeeps).trans hkeeps', ?_, hless.trans_le ?_⟩
      · simp [exec, htick, hwake, hstep]
      · obtain rfl := Option.some.inj (htick.symm.trans ht)
        obtain rfl := Option.some.inj (hwake.symm.trans hu)
        exact hgoes
      · rw [hclock, heq]
        exact hsoon
      · exact (hwoken.trans hkeeps).jobs

/-- **No attempt is stuck**: from any state, what waits on an account is served within 800 ms for each attempt and the
time its processes run, and for this no other account has to move. -/
theorem lane_drains {now : ℕ} {as : List SpawnAction} (h : exec step (init now : AgyEngine P) as = some s)
    (a : AccountId) :
    ∃ cs s', exec step s cs = some s' ∧ Every step (fun s c => GoesOn s a c) s cs ∧
      (s'.lane a).served = (s.lane a).arrived ∧ (s'.lane a).running = [] ∧ (∀ b, b ≠ a → s'.lane b = s.lane b) ∧
      s'.clock ≤ s.clock + (P.jobs (s.accountQueues a)).length * 800 := by
  have hs : ∀ a, (s.lane a).Ok s.clock := fun a => exec_ok h a
  clear h
  generalize hn : (P.jobs (s.accountQueues a)).length = n
  induction n using Nat.strong_induction_on generalizing s with
  | _ n ih =>
    by_cases hjobs : P.jobs (s.accountQueues a) = []
    · refine ⟨[], s, rfl, trivial, ?_, ?_, fun _ _ => rfl, Nat.le_add_right _ _⟩
      · have horder := (hs a).base.order
        rw [show P.jobs (s.lane a).queue = [] from hjobs, List.append_nil] at horder
        exact horder.symm
      · cases (hs a).stage with
        | idle _ _ hrunning _ => exact hrunning
        | sleeping hfirst _ _ _ _ _ => exact absurd (hjobs.symm.trans hfirst) (by simp)
        | live hfirst _ _ _ => exact absurd (hjobs.symm.trans hfirst) (by simp)
    · obtain ⟨cs, t, hcs, hgoes, hkeeps, hclock, hless⟩ := first_advances hs hjobs
      have ht : ∀ a, (t.lane a).Ok t.clock := exec_invariant' step_ok cs s t hs hcs
      obtain ⟨ds, u, hds, hgoes', hserved, hrunning, hothers, hclock'⟩ := ih _ (hn ▸ hless) ht rfl
      refine ⟨cs ++ ds, u, ?_, hgoes.append fun t' ht' => ?_, hserved.trans hkeeps.arrived, hrunning,
        fun b hb => (hothers b hb).trans (hkeeps.others b hb), ?_⟩
      · rw [exec_append, hcs]
        exact hds
      · obtain rfl := Option.some.inj (hcs.symm.trans ht')
        exact hgoes'
      · have hfewer : (P.jobs (t.accountQueues a)).length + 1 ≤ n := hn ▸ hless
        omega

/-- Two of the three attempts are still to be served. -/
theorem lane_drains_threeAttempts :
    ∃ s, exec step (init 1000 : AgyEngine (.list SpawnTask)) threeAttempts = some s ∧
      ∃ cs s', exec step s cs = some s' ∧ (s'.lane accountA).served = [⟨0, 0⟩, ⟨1, 299⟩, ⟨2, 0⟩] ∧
        s'.clock ≤ 1000 + 3 * 800 := by
  obtain ⟨s, hs, hstate⟩ := Option.map_eq_some_iff.mp
    (show (exec step (init 1000 : AgyEngine (.list SpawnTask)) threeAttempts).map
      (fun s => ((s.lane accountA).arrived, s.clock, (s.accountQueues accountA).length)) =
        some ([⟨0, 0⟩, ⟨1, 299⟩, ⟨2, 0⟩], 1000, 3) by decide +kernel)
  simp only [Prod.mk.injEq] at hstate
  obtain ⟨harrived, hclock, hlength⟩ := hstate
  obtain ⟨cs, s', hcs, -, hserved, -, -, htime⟩ := lane_drains hs accountA
  refine ⟨s, hs, cs, s', hcs, hserved.trans harrived, ?_⟩
  rw [hclock] at htime
  exact htime.trans_eq (congrArg (fun n => 1000 + n * 800) hlength)

end AgyEngine

end AgyProxy
