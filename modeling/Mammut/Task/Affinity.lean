import Mathlib.Data.Finset.Card
import Mammut.Kit.Runs
import Mammut.Task.Throttler

/-! Affinities, from `task-linux.cpp`: the virtual cores that `move` asks for and that
`getVirtualCoreIds` reads back, and `ProcessHandlerLinux::move` while the threads of the process
create threads and end.  A new thread has the affinity that its creator has at that moment. -/

namespace Mammut.Task

open Kit.Runs Utils

abbrev VirtualCoreId := ℕ

/-- A `cpu_set_t`. -/
abbrev CpuSet := ℕ → Bool

def CPU_SETSIZE : ℕ := 1024

def CPU_ZERO : CpuSet := fun _ => false

/-- A `cpu_set_t` has no place for an identifier from `CPU_SETSIZE` on. -/
def CPU_SET (set : CpuSet) (cpu : VirtualCoreId) : CpuSet :=
  if cpu < CPU_SETSIZE then Function.update set cpu true else set

/-- The set that `move` builds. -/
def cpuSet (virtualCoresIds : List VirtualCoreId) : CpuSet := virtualCoresIds.foldl CPU_SET CPU_ZERO

theorem cpuSet_iff {ids : List VirtualCoreId} {i : VirtualCoreId} :
    cpuSet ids i = true ↔ i ∈ ids ∧ i < CPU_SETSIZE := by
  suffices h : ∀ set : CpuSet, ids.foldl CPU_SET set i = true ↔
      set i = true ∨ i ∈ ids ∧ i < CPU_SETSIZE by
    exact (h CPU_ZERO).trans (by simp [CPU_ZERO])
  induction ids with
  | nil => simp
  | cons id ids ih =>
    intro set
    rw [List.foldl_cons, ih]
    by_cases hid : i = id
    · subst hid
      by_cases hlt : i < CPU_SETSIZE <;> simp [CPU_SET, hlt]
    · by_cases hlt : id < CPU_SETSIZE <;> simp [CPU_SET, hlt, hid]

def CPU_ISSET (cpu : VirtualCoreId) (set : CpuSet) : Bool := cpu < CPU_SETSIZE && set cpu

/-- The system calls of the affinities.  The first fails or changes the state, the second fails or
gives a set, and the last counts the processors that are online. -/
structure Affinities (σ : Type) where
  schedSetaffinity : TaskId → CpuSet → σ → Bool × σ
  schedGetaffinity : TaskId → σ → Option CpuSet
  nprocessorsOnln : σ → ℕ

/-- What the system does while the processors `online` are. -/
structure Affinities.Lawful {σ : Type} (sched : Affinities σ) (online : Finset VirtualCoreId) :
    Prop where
  possible : ∀ i ∈ online, i < CPU_SETSIZE
  stores : ∀ {tid set s t}, (∀ i, set i = true → i ∈ online) →
    sched.schedSetaffinity tid set s = (true, t) → sched.schedGetaffinity tid t = some set
  counts : ∀ s, sched.nprocessorsOnln s = online.card

/-- `ThreadHandlerLinux::move`. -/
def ThreadHandlerLinux.move {σ : Type} (sched : Affinities σ) (tid : TaskId)
    (virtualCoresIds : List VirtualCoreId) (s : σ) : Bool × σ :=
  sched.schedSetaffinity tid (cpuSet virtualCoresIds) s

/-- The virtual cores, or `none` for `false`. -/
def ExecutionUnitLinux.getVirtualCoreIds {σ : Type} (sched : Affinities σ) (id : TaskId) (s : σ) :
    Option (List VirtualCoreId) :=
  (sched.schedGetaffinity id s).map fun set =>
    (List.range (sched.nprocessorsOnln s)).filter (CPU_ISSET · set)

namespace ThreadHandlerLinux

open ExecutionUnitLinux

variable {σ : Type} {sched : Affinities σ} {online : Finset VirtualCoreId} {tid : TaskId}
  {ids : List VirtualCoreId} {s t : σ}

theorem getVirtualCoreIds_eq (hlawful : sched.Lawful online) (hids : ∀ i ∈ ids, i ∈ online)
    (hmove : move sched tid ids s = (true, t)) : getVirtualCoreIds sched tid t =
      some ((List.range online.card).filter (CPU_ISSET · (cpuSet ids))) := by
  have hset : ∀ i, cpuSet ids i = true → i ∈ online := fun i hi => hids i (cpuSet_iff.mp hi).1
  rw [getVirtualCoreIds, hlawful.stores hset hmove, hlawful.counts, Option.map_some]

/-- What `move` asked for is read back, in order, exactly when no identifier reaches the number of
the processors that are online. -/
theorem getVirtualCoreIds_move_iff (hlawful : sched.Lawful online)
    (hids : ∀ i ∈ ids, i ∈ online) (hmove : move sched tid ids s = (true, t)) :
    (∃ vcs, getVirtualCoreIds sched tid t = some vcs ∧ vcs.Pairwise (· < ·) ∧
      ∀ i, i ∈ vcs ↔ i ∈ ids) ↔ ∀ i ∈ ids, i < online.card := by
  have hisset : ∀ i, CPU_ISSET i (cpuSet ids) = true ↔ i ∈ ids := by
    intro i
    rw [CPU_ISSET, Bool.and_eq_true, decide_eq_true_eq, cpuSet_iff]
    exact ⟨fun h => h.2.1, fun h => ⟨hlawful.possible i (hids i h), h, hlawful.possible i (hids i h)⟩⟩
  rw [getVirtualCoreIds_eq hlawful hids hmove]
  constructor
  · rintro ⟨vcs, hvcs, -, hmem⟩ i hi
    cases hvcs
    exact List.mem_range.mp (List.mem_filter.mp ((hmem i).mpr hi)).1
  · intro hlt
    refine ⟨_, rfl, List.pairwise_lt_range.filter _, fun i => ?_⟩
    rw [List.mem_filter, List.mem_range, hisset]
    exact ⟨fun h => h.2, fun h => ⟨hlt i h, h⟩⟩

/-- A thread alone on a machine where the processors `online` are. -/
def alone (online : Finset VirtualCoreId) : Affinities CpuSet where
  schedSetaffinity _ set _ := (true, set)
  schedGetaffinity _ affinity := some affinity
  nprocessorsOnln _ := online.card

theorem alone_lawful {online : Finset VirtualCoreId} (h : ∀ i ∈ online, i < CPU_SETSIZE) :
    (alone online).Lawful online where
  possible := h
  stores _ hmove := congrArg some (Prod.mk.inj hmove).2.symm
  counts _ := rfl

theorem getVirtualCoreIds_move_repeated : ∃ vcs,
    getVirtualCoreIds (alone {0, 1, 3}) 7 (cpuSet [1, 0, 1]) = some vcs ∧ vcs.Pairwise (· < ·) ∧
      ∀ i, i ∈ vcs ↔ i ∈ [1, 0, 1] :=
  (getVirtualCoreIds_move_iff (s := CPU_ZERO) (alone_lawful (by decide)) (by decide) rfl).mpr
    (by decide)

/-- Processor 1 is offline: the scan of two identifiers does not come to that of processor 2. -/
theorem getVirtualCoreIds_move_offline :
    (alone {0, 2}).Lawful {0, 2} ∧
      move (alone {0, 2}) 7 [2] CPU_ZERO = (true, cpuSet [2]) ∧
      getVirtualCoreIds (alone {0, 2}) 7 (cpuSet [2]) = some [] :=
  ⟨alone_lawful (by decide), rfl, by decide⟩

end ThreadHandlerLinux

def isNumber (s : String) : Bool := s ≠ "" && s.toList.all Char.isDigit

/-- `getExecutionUnitsIdentifiers`, of the names in the directory. -/
def getExecutionUnitsIdentifiers (names : List String) : List TaskId :=
  (names.filter isNumber).map stringToInt

/-- Every thread whose name is in the directory is listed. -/
theorem mem_getExecutionUnitsIdentifiers {names : List String} {tid : ℕ}
    (h : intToString tid ∈ names) : (tid : TaskId) ∈ getExecutionUnitsIdentifiers names := by
  have hnumber : isNumber (intToString tid) = true := by
    have hne := intToString_ne_empty tid
    have hall : ∀ c ∈ (intToString tid).toList, c.isDigit := fun c => isDigit_of_mem_intToString
    simp only [isNumber, hne, List.all_eq_true.mpr hall, ne_eq, not_false_eq_true, decide_true,
      Bool.and_self]
  exact List.mem_map.mpr ⟨_, List.mem_filter.mpr ⟨h, hnumber⟩, stringToInt_intToString tid⟩

/-- A thread of the process. -/
structure Thread where
  tid : ℕ
  affinity : CpuSet

/-- The thread has the affinity that `move` sets. -/
def Thread.Moved (ids : List VirtualCoreId) (thread : Thread) : Prop := thread.affinity = cpuSet ids

/-- Where `move` is. -/
inductive Mover
  | atLeader
  | atList
  /-- The threads that have been listed, and that it has yet to move. -/
  | atThreads (tids : List TaskId)
  | returned (result : Bool)
  | threw

/-- The live threads of a process, and the call of `move` on it. -/
structure Moving where
  threads : List Thread
  mover : Mover

namespace Moving

/-- `sched_setaffinity`, which does not know a thread that has ended. -/
def schedSetaffinity (id : TaskId) (set : CpuSet) (threads : List Thread) : List Thread :=
  threads.map fun thread => if (thread.tid : TaskId) = id then { thread with affinity := set } else thread

/-- The thread is alive. -/
def Alive (s : Moving) (tid : ℕ) : Prop := ∃ thread ∈ s.threads, thread.tid = tid

inductive Label
  /-- The affinity of the leader is set, or the call fails. -/
  | leader (succeeds : Bool)
  /-- The names that the directory of the threads shows. -/
  | list (names : List String)
  /-- The directory cannot be read. -/
  | listFails
  | thread
  | finish
  | create (creator tid : ℕ)
  | exit (tid : ℕ)

variable (pid : ℕ) (ids : List VirtualCoreId)

inductive Step (s : Moving) : Label → Moving → Prop
  | leader {succeeds : Bool} (hmover : s.mover = .atLeader) (hlive : s.Alive pid → succeeds = true) :
      Step s (.leader succeeds) (if succeeds then
        ⟨schedSetaffinity pid (cpuSet ids) s.threads, .atList⟩ else { s with mover := .returned false })
  | list {names : List String} (hmover : s.mover = .atList)
      (hnames : ∀ tid : ℕ, intToString tid ∈ names ↔ s.Alive tid) :
      Step s (.list names) { s with mover := .atThreads (getExecutionUnitsIdentifiers names) }
  | listFails (hmover : s.mover = .atList) :
      Step s .listFails { s with mover := if s.threads.isEmpty then .atThreads [] else .threw }
  | thread {tid : TaskId} {rest : List TaskId} (hmover : s.mover = .atThreads (tid :: rest)) :
      Step s .thread ⟨schedSetaffinity tid (cpuSet ids) s.threads, .atThreads rest⟩
  | finish (hmover : s.mover = .atThreads []) : Step s .finish { s with mover := .returned true }
  | create {creator : Thread} {tid : ℕ} (hcreator : creator ∈ s.threads) (hfresh : ¬s.Alive tid) :
      Step s (.create creator.tid tid) { s with threads := s.threads ++ [⟨tid, creator.affinity⟩] }
  | exit {tid : ℕ} :
      Step s (.exit tid) { s with threads := s.threads.filter fun thread => thread.tid ≠ tid }

/-- Between the listing and the return of `move`, a thread that creates one has been moved. -/
def Settled (s : Moving) (l : Label) : Prop :=
  match l, s.mover with
  | .create creator _, .atThreads _ => ∀ thread ∈ s.threads, thread.tid = creator → thread.Moved ids
  | _, _ => True

/-- The invariant of the runs whose steps are settled: once the threads have been listed, each is
one that `move` has yet to move, or has been moved. -/
def Covered (s : Moving) : Prop :=
  match s.mover with
  | .atThreads tids => ∀ thread ∈ s.threads, (thread.tid : TaskId) ∈ tids ∨ thread.Moved ids
  | .returned true => ∀ thread ∈ s.threads, thread.Moved ids
  | _ => True

variable {pid ids} {s t : Moving} {l : Label}

/-- Threads that have the affinity of threads that were covered. -/
theorem Covered.subset (h : Covered ids s) (hmover : t.mover = s.mover)
    (hthreads : ∀ thread ∈ t.threads, thread ∈ s.threads ∨
      (∀ tids, s.mover = .atThreads tids → thread.Moved ids) ∧
      (s.mover = .returned true → thread.Moved ids)) : Covered ids t := by
  unfold Covered at h ⊢
  rw [hmover]
  split at h
  · rename_i tids hs
    intro thread hthread
    rcases hthreads thread hthread with hold | hnew
    · exact h thread hold
    · exact Or.inr (hnew.1 tids hs)
  · rename_i hs
    intro thread hthread
    rcases hthreads thread hthread with hold | hnew
    · exact h thread hold
    · exact hnew.2 hs
  · trivial

theorem Covered.step (h : Covered ids s) (hsettled : Settled ids s l) (hstep : Step pid ids s l t) :
    Covered ids t := by
  cases hstep with
  | @leader succeeds hmover hlive => cases succeeds <;> trivial
  | list hmover hnames =>
    intro thread hthread
    exact Or.inl (mem_getExecutionUnitsIdentifiers ((hnames thread.tid).mpr ⟨thread, hthread, rfl⟩))
  | listFails hmover =>
    by_cases hempty : s.threads = []
    · simp [Covered, hempty]
    · simp [Covered, hempty]
  | @thread tid rest hmover =>
    simp only [Covered, hmover] at h
    intro thread hthread
    obtain ⟨old, hold, rfl⟩ := List.mem_map.mp hthread
    by_cases htid : (old.tid : TaskId) = tid
    · simp [htid, Thread.Moved]
    · simp only [htid, if_false]
      exact (h old hold).imp_left fun hmem => (List.mem_cons.mp hmem).resolve_left htid
  | finish hmover =>
    simp only [Covered, hmover, List.not_mem_nil, false_or] at h
    exact h
  | @create creator tid hcreator hfresh =>
    refine h.subset rfl fun thread hthread => ?_
    rcases List.mem_append.mp hthread with hold | hnew
    · exact Or.inl hold
    · rw [List.mem_singleton.mp hnew]
      refine Or.inr ⟨fun tids hs => ?_, fun hs => ?_⟩
      · simp only [Settled, hs] at hsettled
        exact hsettled creator hcreator rfl
      · simp only [Covered, hs] at h
        exact h creator hcreator
  | exit => exact h.subset rfl fun thread hthread => Or.inl (List.mem_of_mem_filter hthread)

/-- When every thread that creates one between the listing and the return has been moved, then
after `move` has returned `true` every thread that is alive has exactly the affinity asked for. -/
theorem move_moves_all {labels : List Label} {threads : List Thread}
    (run : Run (Guarded (Settled ids) (Step pid ids)) ⟨threads, .atLeader⟩ labels s)
    (hreturned : s.mover = .returned true) :
    ∀ thread ∈ s.threads, ∀ i, thread.affinity i = true ↔ i ∈ ids ∧ i < CPU_SETSIZE := by
  have hcovered : Covered ids s :=
    run.invariant (Covered ids) trivial fun _ _ _ h hstep => h.step hstep.1 hstep.2
  simp only [Covered, hreturned] at hcovered
  intro thread hthread i
  rw [hcovered thread hthread]
  exact cpuSet_iff

theorem mem_names {tid : ℕ} :
    intToString tid ∈ s.threads.map (fun thread => intToString thread.tid) ↔ s.Alive tid := by
  rw [List.mem_map]
  refine exists_congr fun thread => and_congr_right fun _ => ⟨fun h => ?_, fun h => by rw [h]⟩
  have hvalue := congrArg stringToInt h
  simpa using hvalue

/-- A process with threads that may only run on core 0. -/
def onCore0 (tids : List ℕ) : Moving := ⟨tids.map fun tid => ⟨tid, CPU_SET CPU_ZERO 0⟩, .atLeader⟩

/-- A thread that has been moved creates another after the listing. -/
theorem move_moves_all_created : ∃ labels s,
    Run (Guarded (Settled [3]) (Step 1 [3])) (onCore0 [1]) labels s ∧
      s.threads.map Thread.tid = [1, 2] ∧
      ∀ thread ∈ s.threads, ∀ i, thread.affinity i = true ↔ i ∈ [3] ∧ i < CPU_SETSIZE := by
  have led : Run (Guarded (Settled [3]) (Step 1 [3])) (onCore0 [1]) ([] ++ [.leader true])
      ⟨[⟨1, cpuSet [3]⟩], .atList⟩ := Run.nil.snoc ⟨trivial, .leader rfl fun _ => rfl⟩
  have listed : Run (Guarded (Settled [3]) (Step 1 [3])) (onCore0 [1]) _
      ⟨[⟨1, cpuSet [3]⟩], .atThreads [1]⟩ :=
    led.snoc (l := .list _) ⟨by trivial, .list rfl fun _ => mem_names⟩
  have hmoved : (⟨1, cpuSet [3]⟩ : Thread).Moved [3] := rfl
  have hcreator : (⟨1, cpuSet [3]⟩ : Thread) ∈ [(⟨1, cpuSet [3]⟩ : Thread)] :=
    List.mem_singleton_self _
  have hfresh : ¬Alive ⟨[⟨1, cpuSet [3]⟩], .atThreads [1]⟩ 2 := by simp [Alive]
  have created : Run (Guarded (Settled [3]) (Step 1 [3])) (onCore0 [1]) _
      ⟨[⟨1, cpuSet [3]⟩, ⟨2, cpuSet [3]⟩], .atThreads [1]⟩ :=
    listed.snoc (l := .create 1 2) ⟨by simpa [Settled] using hmoved, .create hcreator hfresh⟩
  have finished :=
    created.snoc (l := .thread) ⟨by trivial, .thread rfl⟩
  have returned := finished.snoc (l := .finish) ⟨by trivial, .finish rfl⟩
  exact ⟨_, _, returned, rfl, move_moves_all returned rfl⟩

/-- A thread that `move` has yet to move creates another after the listing: it keeps the affinity of
its creator. -/
theorem created_not_moved :
    ¬∀ labels s, Run (Step 1 [3]) (onCore0 [1, 2]) labels s → s.mover = .returned true →
      ∀ thread ∈ s.threads, ∀ i, thread.affinity i = true ↔ i ∈ [3] := by
  intro hall
  have led : Run (Step 1 [3]) (onCore0 [1, 2]) ([] ++ [.leader true])
      ⟨[⟨1, cpuSet [3]⟩, ⟨2, CPU_SET CPU_ZERO 0⟩], .atList⟩ :=
    Run.nil.snoc (.leader rfl fun _ => rfl)
  have listed : Run (Step 1 [3]) (onCore0 [1, 2]) _
      ⟨[⟨1, cpuSet [3]⟩, ⟨2, CPU_SET CPU_ZERO 0⟩], .atThreads [1, 2]⟩ :=
    led.snoc (l := .list _) (.list rfl fun _ => mem_names)
  have hfresh : ¬Alive ⟨[⟨1, cpuSet [3]⟩, ⟨2, CPU_SET CPU_ZERO 0⟩], .atThreads [1, 2]⟩ 3 := by
    simp [Alive]
  have hcreator : (⟨2, CPU_SET CPU_ZERO 0⟩ : Thread) ∈
      [(⟨1, cpuSet [3]⟩ : Thread), ⟨2, CPU_SET CPU_ZERO 0⟩] := by simp
  have created : Run (Step 1 [3]) (onCore0 [1, 2]) _
      ⟨[⟨1, cpuSet [3]⟩, ⟨2, CPU_SET CPU_ZERO 0⟩, ⟨3, CPU_SET CPU_ZERO 0⟩], .atThreads [1, 2]⟩ :=
    listed.snoc (l := .create 2 3) (.create hcreator hfresh)
  have returned : Run (Step 1 [3]) (onCore0 [1, 2]) _
      ⟨[⟨1, cpuSet [3]⟩, ⟨2, cpuSet [3]⟩, ⟨3, CPU_SET CPU_ZERO 0⟩], .returned true⟩ :=
    ((created.snoc (l := .thread) (.thread rfl)).snoc (l := .thread) (.thread rfl)).snoc
      (l := .finish) (.finish rfl)
  have haffinity := (hall _ _ returned rfl ⟨3, CPU_SET CPU_ZERO 0⟩ (by simp) 0).mp rfl
  simp at haffinity

end Moving

end Mammut.Task
