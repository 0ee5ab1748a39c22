import Mathlib.Algebra.Order.Field.Rat
import Mathlib.Tactic.NormNum
import Mathlib.Tactic.Ring
import Mammut.Topology.Service
import Mammut.Utils.Words

/-! The times of a virtual core in `/proc/stat`, from `topology-linux.cpp`.  Every line with the name
of the core in it is taken for its line, and the last of them is read. -/

set_option linter.dupNamespace false

namespace Mammut.Topology

open Utils

def PROC_STAT_USER : ℕ := 1
def PROC_STAT_IDLE : ℕ := 4
def PROC_STAT_GUEST_NICE : ℕ := 10

/-- A line of `/proc/stat`: the ticks of a processor, those of all of them, or another. -/
inductive StatLine
  | cpu (id : VirtualCoreId) (ticks : List ℕ)
  | aggregate (ticks : List ℕ)
  | other (text : String)
  deriving DecidableEq

namespace StatLine

def ticksWords (ticks : List ℕ) : List String := ticks.map fun n : ℕ => intToString n

def ticksText (ticks : List ℕ) : String :=
  String.ofList ((ticksWords ticks).flatMap fun t => ' ' :: t.toList)

def text : StatLine → String
  | cpu id ticks => "cpu" ++ intToString id ++ ticksText ticks
  | aggregate ticks => "cpu " ++ ticksText ticks
  | other text => text

def id : StatLine → Option VirtualCoreId
  | cpu id _ => some id
  | _ => none

/-- The line has the name of the core in it. -/
def Names (v : VirtualCoreId) : StatLine → Prop
  | cpu id _ => (intToString v).toList <+: (intToString id).toList
  | aggregate _ => False
  | other text => contains text ("cpu" ++ intToString v)

instance (v : VirtualCoreId) : DecidablePred (Names v)
  | cpu id _ => inferInstanceAs (Decidable ((intToString v).toList <+: (intToString id).toList))
  | aggregate _ => inferInstanceAs (Decidable False)
  | other text => inferInstanceAs (Decidable (contains text ("cpu" ++ intToString v) = true))

/-- The number that is read in the line. -/
def count (type : ℕ) : StatLine → Option Int
  | cpu _ ticks => ticks[type - PROC_STAT_USER]?.map fun n : ℕ => intOf n
  | aggregate _ => none
  | other text => (split text ' ')[type]?.map fun s => intOf (stringToInt s)

end StatLine

/-- The contents of `/proc/stat`: a line for each processor, among others. -/
structure CpuStat where
  lines : List StatLine
  nodup : (lines.filterMap StatLine.id).Nodup
  length : ∀ id ticks, .cpu id ticks ∈ lines → ticks.length = PROC_STAT_GUEST_NICE
  other : ∀ text, .other text ∈ lines → '\n' ∉ text.toList ∧ startsWith text "cpu" = false

namespace CpuStat

variable (stat : CpuStat) (v : VirtualCoreId)

def text : String := ofLines (stat.lines.map StatLine.text)

/-- The line of the core. -/
def Has (ticks : List ℕ) : Prop := .cpu v ticks ∈ stat.lines

/-- The number in the last line that has the name of the core in it. -/
def lastCount (type : ℕ) : Option Int :=
  (stat.lines.reverse.find? (·.Names v)).bind (·.count type)

end CpuStat

namespace StatLine

theorem ticks_words (ticks : List ℕ) :
    ∀ t ∈ ticksWords ticks, ' ' ∉ t.toList ∧ t ≠ "" := by
  intro t ht
  obtain ⟨n, -, rfl⟩ := List.mem_map.mp ht
  exact ⟨not_mem_intToString (by decide) n, intToString_ne_empty n⟩

theorem not_mem_ticksText {c : Char} (hc : c.isDigit = false) (hspace : c ≠ ' ') (ticks : List ℕ) :
    c ∉ (ticksText ticks).toList := by
  rw [ticksText, String.toList_ofList, List.mem_flatMap]
  rintro ⟨t, ht, hmem⟩
  obtain ⟨n, -, rfl⟩ := List.mem_map.mp ht
  rcases List.mem_cons.mp hmem with heq | hmem
  · exact hspace heq
  · exact not_mem_intToString hc n hmem

/-- The name of a core is found at the beginning of a line or not at all. -/
theorem contains_cpu_iff {line name : String} {rest : List Char}
    (hline : line.toList = 'c' :: 'p' :: 'u' :: rest) (hrest : 'c' ∉ rest) :
    contains line ("cpu" ++ name) = true ↔ name.toList <+: rest := by
  have hnot (what : List Char) : ¬ ('c' :: what <:+: rest) :=
    fun hfound => hrest (hfound.subset List.mem_cons_self)
  rw [contains_iff, hline]
  simp [List.infix_cons_iff, hnot]

/-- The name of the core is found in the lines that have it. -/
theorem contains_iff_names {v : VirtualCoreId} (line : StatLine) :
    contains line.text ("cpu" ++ intToString v) = true ↔ line.Names v := by
  have hv : ' ' ∉ (intToString v).toList := not_mem_intToString (by decide) v
  cases line with
  | cpu id ticks =>
    have hrest : 'c' ∉ (intToString id).toList ++ (ticksText ticks).toList := by
      rw [List.mem_append, not_or]
      exact ⟨not_mem_intToString (by decide) id, not_mem_ticksText (by decide) (by decide) ticks⟩
    rw [contains_cpu_iff (by simp [text]) hrest, ticksText, String.toList_ofList]
    exact prefix_words_iff hv
  | aggregate ticks =>
    have hrest : 'c' ∉ ' ' :: (ticksText ticks).toList := by
      rw [List.mem_cons, not_or]
      exact ⟨by decide, not_mem_ticksText (by decide) (by decide) ticks⟩
    rw [contains_cpu_iff (by simp [text]) hrest, Names, iff_false]
    intro hprefix
    rcases List.prefix_cons_iff.mp hprefix with hnil | ⟨rest, hspace, -⟩
    · exact Nat.toDigits_ne_nil (toList_intToString v ▸ hnil)
    · exact hv (hspace ▸ List.mem_cons_self)
  | other text => exact Iff.rfl

theorem split_cpu (id : VirtualCoreId) (ticks : List ℕ) (h : ticks ≠ []) :
    split (text (.cpu id ticks)) ' ' =
      ("cpu" ++ intToString id) :: ticksWords ticks := by
  have hwords : ticksWords ticks ≠ [] := by simpa [ticksWords] using h
  have hname : ' ' ∉ ("cpu" ++ intToString id).toList := by
    have hid := not_mem_intToString (c := ' ') (by decide) id
    simpa using hid
  rw [split, text, String.toList_append, ticksText, String.toList_ofList, splitFrom_append hname,
    splitFrom_words (ticks_words ticks) (.inr hwords), List.append_nil,
    List.reverse_reverse, String.ofList_toList]

/-- What is read in a line that has the name of the core in it. -/
theorem count_eq {v : VirtualCoreId} {type : ℕ} (hlow : PROC_STAT_USER ≤ type) {line : StatLine}
    (hnames : line.Names v) (hlength : ∀ id ticks, line = .cpu id ticks → ticks ≠ []) :
    (split line.text ' ')[type]?.map (fun s => intOf (stringToInt s)) = line.count type := by
  cases line with
  | cpu id ticks =>
    obtain ⟨k, rfl⟩ : ∃ k, type = k + PROC_STAT_USER := Nat.exists_eq_add_of_le' hlow
    rw [split_cpu id ticks (hlength id ticks rfl), count, Nat.add_sub_cancel]
    simp [PROC_STAT_USER, ticksWords, Function.comp_def]
  | aggregate ticks => exact hnames.elim
  | other text => rfl

end StatLine

namespace CpuStat

variable (stat : CpuStat)

theorem ticks_ne_nil {id : VirtualCoreId} {ticks : List ℕ} (h : stat.Has id ticks) : ticks ≠ [] := by
  rintro rfl
  have hlength := stat.length id [] h
  cases hlength

theorem lines_newline : ∀ line ∈ stat.lines.map StatLine.text, '\n' ∉ line.toList := by
  intro text htext
  obtain ⟨line, hline, rfl⟩ := List.mem_map.mp htext
  cases line with
  | cpu id ticks =>
    have hid := not_mem_intToString (c := '\n') (by decide) id
    have hticks := StatLine.not_mem_ticksText (c := '\n') (by decide) (by decide) ticks
    simpa [StatLine.text] using ⟨hid, hticks⟩
  | aggregate ticks =>
    have hticks := StatLine.not_mem_ticksText (c := '\n') (by decide) (by decide) ticks
    simpa [StatLine.text] using hticks
  | other text => exact (stat.other text hline).1

end CpuStat

namespace VirtualCoreLinux

variable {σ : Type} {sys : System σ} {v : VirtualCoreId} {type : ℕ} {s : σ}

/-- A line with the name of the core gives the field, or has none to give. -/
theorem procStatField_run (hlow : PROC_STAT_USER ≤ type) (field : Option Int) {line : StatLine}
    (hlength : ∀ id ticks, line = .cpu id ticks → ticks ≠ []) :
    (procStatField v type field line.text : Call σ _).run s =
      if line.Names v then
        match line.count type with
        | some n => .ok (some n) s
        | none => .error .undefined s
      else .ok field s := by
  unfold procStatField
  by_cases hnames : line.Names v
  · rw [if_pos (line.contains_iff_names.mpr hnames), if_pos hnames,
      ← StatLine.count_eq hlow hnames hlength]
    cases (split line.text ' ')[type]? <;> rfl
  · rw [if_neg fun h => hnames (line.contains_iff_names.mp h), if_neg hnames]
    rfl

/-- The loop ends with the number in the last line that has the name of the core, if each of these
has one. -/
theorem procStatFields_run (hlow : PROC_STAT_USER ≤ type) {lines : List StatLine}
    (hlength : ∀ id ticks, .cpu id ticks ∈ lines → ticks ≠ [])
    (hcount : ∀ line ∈ lines, line.Names v → line.count type ≠ none) (field : Option Int) :
    ((lines.map StatLine.text).foldlM (procStatField v type) field : Call σ _).run s =
      .ok (((lines.reverse.find? (·.Names v)).bind (·.count type)).or field) s := by
  induction lines generalizing field with
  | nil => rfl
  | cons line lines ih =>
    obtain ⟨hline, hlines⟩ := List.forall_mem_cons.mp hcount
    have hrest (next : Option Int) := ih
      (fun id ticks h => hlength id ticks (List.mem_cons_of_mem _ h)) hlines next
    have hstep := procStatField_run (v := v) (s := s) hlow field fun id ticks h =>
      hlength id ticks (h ▸ List.mem_cons_self)
    rw [List.map_cons, List.foldlM_cons, EStateM.run_bind, hstep, List.reverse_cons,
      List.find?_append]
    by_cases hnames : line.Names v
    · obtain ⟨n, hn⟩ := Option.ne_none_iff_exists'.mp (hline hnames)
      rw [if_pos hnames, hn]
      apply (hrest (some n)).trans
      cases hlast : lines.reverse.find? (·.Names v) with
      | none => simp [hnames, hn]
      | some last =>
        have hmem : last ∈ lines := List.mem_reverse.mp (List.mem_of_find?_eq_some hlast)
        have hlastNames : last.Names v := by simpa using List.find?_some hlast
        obtain ⟨m, hm⟩ := Option.ne_none_iff_exists'.mp (hlines last hmem hlastNames)
        simp [hm]
    · rw [if_neg hnames]
      apply (hrest field).trans
      simp [hnames]

/-- A line without the field ends the loop with a reading out of range. -/
theorem procStatFields_undefined (hlow : PROC_STAT_USER ≤ type) {lines : List StatLine}
    (hlength : ∀ id ticks, .cpu id ticks ∈ lines → ticks ≠ [])
    (hcount : ¬∀ line ∈ lines, line.Names v → line.count type ≠ none) (field : Option Int) :
    ((lines.map StatLine.text).foldlM (procStatField v type) field : Call σ _).run s =
      .error .undefined s := by
  induction lines generalizing field with
  | nil => exact absurd (fun _ h => nomatch h) hcount
  | cons line lines ih =>
    rw [List.forall_mem_cons, not_and_or] at hcount
    have hrest (h : ¬∀ line ∈ lines, line.Names v → line.count type ≠ none)
        (next : Option Int) := ih
      (fun id ticks h => hlength id ticks (List.mem_cons_of_mem _ h)) h next
    have hstep := procStatField_run (v := v) (s := s) hlow field fun id ticks h =>
      hlength id ticks (h ▸ List.mem_cons_self)
    rw [List.map_cons, List.foldlM_cons, EStateM.run_bind, hstep]
    by_cases hnames : line.Names v
    · rw [if_pos hnames]
      cases hn : line.count type with
      | none => rfl
      | some n =>
        have hline : line.Names v → line.count type ≠ none := fun _ h => by simp [hn] at h
        exact hrest (hcount.resolve_left fun h => h hline) (some n)
    · rw [if_neg hnames]
      exact hrest (hcount.resolve_left fun h => h fun h => absurd h hnames) field

variable {stat : CpuStat}

/-- Microseconds. -/
def ofTicks (sys : System σ) (ticks : Int) : ℚ := ticks / sys.clockTicksPerSecond * 1000000

theorem ofTicks_inj (hclock : 0 < sys.clockTicksPerSecond) {m n : Int} :
    ofTicks sys m = ofTicks sys n ↔ m = n := by
  have hne : (sys.clockTicksPerSecond : ℚ) ≠ 0 := by exact_mod_cast hclock.ne'
  unfold ofTicks
  rw [mul_left_inj' (by norm_num), div_left_inj' hne, Int.cast_inj]

theorem ofTicks_eq_neg_one (hclock : 0 < sys.clockTicksPerSecond) {n : Int} :
    ofTicks sys n = -1 ↔ n * 1000000 = -sys.clockTicksPerSecond := by
  have hne : (sys.clockTicksPerSecond : ℚ) ≠ 0 := by exact_mod_cast hclock.ne'
  unfold ofTicks
  rw [div_mul_eq_mul_div, div_eq_iff hne, neg_one_mul]
  exact_mod_cast Iff.rfl

theorem lines_of_file (hfile : sys.read (sys.sysfsRootPrefix ++ "/proc/stat") s = some stat.text) :
    (sys.readFile (sys.sysfsRootPrefix ++ "/proc/stat")).run s =
      .ok (stat.lines.map StatLine.text) s := by
  rw [sys.readFile_run hfile, CpuStat.text, split_ofLines stat.lines_newline]

/-- The time that is read is that of the last line with the name of the core. -/
theorem getProcStatTime_run
    (hfile : sys.read (sys.sysfsRootPrefix ++ "/proc/stat") s = some stat.text)
    (hlow : PROC_STAT_USER ≤ type)
    (hcount : ∀ line ∈ stat.lines, line.Names v → line.count type ≠ none) :
    (getProcStatTime sys v type).run s =
      .ok (((stat.lastCount v type).map (ofTicks sys)).getD (-1)) s := by
  have hloop := procStatFields_run (v := v) (s := s) hlow (fun _ _ => stat.ticks_ne_nil) hcount none
  rw [Option.or_none] at hloop
  rw [getProcStatTime, EStateM.run_bind, lines_of_file hfile]
  simp only [EStateM.run_bind, hloop, CpuStat.lastCount]
  cases (stat.lines.reverse.find? (·.Names v)).bind (·.count type) <;> rfl

theorem getProcStatTime_undefined
    (hfile : sys.read (sys.sysfsRootPrefix ++ "/proc/stat") s = some stat.text)
    (hlow : PROC_STAT_USER ≤ type)
    (hcount : ¬∀ line ∈ stat.lines, line.Names v → line.count type ≠ none) :
    (getProcStatTime sys v type).run s = .error .undefined s := by
  have hloop :=
    procStatFields_undefined (v := v) (s := s) hlow (fun _ _ => stat.ticks_ne_nil) hcount none
  rw [getProcStatTime, EStateM.run_bind, lines_of_file hfile]
  simp only [EStateM.run_bind, hloop]

/-- The time is the one in the line of the core, and −1 just when there is no such line. -/
structure ReadsTime (sys : System σ) (v : VirtualCoreId) (type : ℕ) (s : σ) (stat : CpuStat) :
    Prop where
  own : ∀ ticks n, stat.Has v ticks → ticks[type - PROC_STAT_USER]? = some n →
    (getProcStatTime sys v type).run s = .ok (ofTicks sys n) s
  absent : (getProcStatTime sys v type).run s = .ok (-1) s ↔ ∀ ticks, ¬stat.Has v ticks

end VirtualCoreLinux

/-- The last line with the name of the core shows its ticks, as an `int`, and the others have the
field.  Without a line of the core there is none, but for one whose ticks are those of −1. -/
structure CpuStat.Shows (stat : CpuStat) (v : VirtualCoreId) (type clockTicksPerSecond : ℕ) :
    Prop where
  count : ∀ line ∈ stat.lines, line.Names v → line.count type ≠ none
  own : ∀ ticks n, stat.Has v ticks → ticks[type - PROC_STAT_USER]? = some n →
    stat.lastCount v type = some (n : Int)
  absent : (∀ ticks, ¬stat.Has v ticks) →
    ∀ n, stat.lastCount v type = some n → n * 1000000 = -clockTicksPerSecond

namespace VirtualCoreLinux

variable {σ : Type} {sys : System σ} {v : VirtualCoreId} {type : ℕ} {s : σ} {stat : CpuStat}

/-- A core with a line has a line with its name, and a count in it. -/
theorem lastCount_of_has {ticks : List ℕ} (hhas : stat.Has v ticks)
    (hcount : ∀ line ∈ stat.lines, line.Names v → line.count type ≠ none) :
    ∃ x, stat.lastCount v type = some x := by
  have hself : (StatLine.cpu v ticks).Names v := List.prefix_refl _
  cases hlast : stat.lines.reverse.find? (·.Names v) with
  | none =>
    have hnone := List.find?_eq_none.mp hlast _ (List.mem_reverse.mpr hhas)
    exact absurd (decide_eq_true hself) hnone
  | some line =>
    have hmem : line ∈ stat.lines := List.mem_reverse.mp (List.mem_of_find?_eq_some hlast)
    have hnames : line.Names v := by simpa using List.find?_some hlast
    obtain ⟨x, hx⟩ := Option.ne_none_iff_exists'.mp (hcount line hmem hnames)
    exact ⟨x, by rw [CpuStat.lastCount, hlast, Option.bind_some, hx]⟩

theorem tick_of_has {ticks : List ℕ} (hhas : stat.Has v ticks) (hlow : PROC_STAT_USER ≤ type)
    (hhigh : type ≤ PROC_STAT_GUEST_NICE) : ∃ n, ticks[type - PROC_STAT_USER]? = some n := by
  have hlength := stat.length v ticks hhas
  have hlt : type - PROC_STAT_USER < ticks.length := by
    unfold PROC_STAT_USER PROC_STAT_GUEST_NICE at *
    omega
  exact ⟨_, List.getElem?_eq_getElem hlt⟩

theorem shows_of_readsTime (hclock : 0 < sys.clockTicksPerSecond)
    (hfile : sys.read (sys.sysfsRootPrefix ++ "/proc/stat") s = some stat.text)
    (hlow : PROC_STAT_USER ≤ type) (hhigh : type ≤ PROC_STAT_GUEST_NICE)
    (h : ReadsTime sys v type s stat) : stat.Shows v type sys.clockTicksPerSecond := by
  have hcount : ∀ line ∈ stat.lines, line.Names v → line.count type ≠ none := by
    by_contra hcount
    have hrun := getProcStatTime_undefined hfile hlow hcount
    have hhas : ∃ ticks, stat.Has v ticks := by
      by_contra hnone
      have habsent := h.absent.mpr fun ticks hticks => hnone ⟨ticks, hticks⟩
      rw [hrun] at habsent
      cases habsent
    obtain ⟨ticks, hticks⟩ := hhas
    obtain ⟨n, hn⟩ := tick_of_has hticks hlow hhigh
    have hown := h.own ticks n hticks hn
    rw [hrun] at hown
    cases hown
  have hrun := getProcStatTime_run hfile hlow hcount
  refine ⟨hcount, ?_, ?_⟩
  · intro ticks n hticks hn
    obtain ⟨x, hx⟩ := lastCount_of_has hticks hcount
    have hown := h.own ticks n hticks hn
    rw [hrun, hx] at hown
    rw [hx, (ofTicks_inj hclock).mp (EStateM.Result.ok.inj hown).1]
  · intro hnone n hn
    have habsent := h.absent.mpr hnone
    rw [hrun, hn] at habsent
    exact (ofTicks_eq_neg_one hclock).mp (EStateM.Result.ok.inj habsent).1

theorem readsTime_of_shows (hclock : 0 < sys.clockTicksPerSecond)
    (hfile : sys.read (sys.sysfsRootPrefix ++ "/proc/stat") s = some stat.text)
    (hlow : PROC_STAT_USER ≤ type) (hhigh : type ≤ PROC_STAT_GUEST_NICE)
    (h : stat.Shows v type sys.clockTicksPerSecond) : ReadsTime sys v type s stat := by
  have hrun := getProcStatTime_run hfile hlow h.count
  refine ⟨?_, ?_, ?_⟩
  · intro ticks n hticks hn
    rw [hrun, h.own ticks n hticks hn]
    rfl
  · intro hminus ticks hticks
    obtain ⟨n, hn⟩ := tick_of_has hticks hlow hhigh
    rw [hrun, h.own ticks n hticks hn] at hminus
    -- No number of ticks is the time −1.
    have heq := (ofTicks_eq_neg_one hclock).mp (EStateM.Result.ok.inj hminus).1
    omega
  · intro hnone
    rw [hrun]
    cases hlast : stat.lastCount v type with
    | none => rfl
    | some n =>
      have heq := (ofTicks_eq_neg_one hclock).mpr (h.absent hnone n hlast)
      show EStateM.Result.ok (ofTicks sys n) s = _
      rw [heq]

end VirtualCoreLinux

namespace TopologyLinux

open VirtualCoreLinux

variable {σ : Type} {sys : System σ} {v : VirtualCoreId} {s₁ s₂ : σ} {stat₁ stat₂ : CpuStat}

/-- The times of a core are read in both contents, and its idle time since a reset in the first. -/
structure MeasuresIdle (sys : System σ) (v : VirtualCoreId) (s₁ s₂ : σ) (stat₁ stat₂ : CpuStat) :
    Prop where
  before : ∀ type, PROC_STAT_USER ≤ type → type ≤ PROC_STAT_GUEST_NICE →
    ReadsTime sys v type s₁ stat₁
  after : ∀ type, PROC_STAT_USER ≤ type → type ≤ PROC_STAT_GUEST_NICE →
    ReadsTime sys v type s₂ stat₂
  idle : ∀ ticks₁ ticks₂ n₁ n₂, stat₁.Has v ticks₁ → stat₂.Has v ticks₂ →
    ticks₁[PROC_STAT_IDLE - PROC_STAT_USER]? = some n₁ →
    ticks₂[PROC_STAT_IDLE - PROC_STAT_USER]? = some n₂ →
    ∀ t : TopologyLinux, ∃ t', (resetIdleTime sys v).run (t, s₁) = .ok () (t', s₁) ∧
      (getIdleTime sys v).run (t', s₂) = .ok (ofTicks sys (n₂ - n₁)) (t', s₂)

/-- The idle time is the difference of the times that are read. -/
theorem getIdleTime_of_reset {idle₁ idle₂ : ℚ} (t : TopologyLinux)
    (h₁ : (getAbsoluteIdleTime sys v).run s₁ = .ok idle₁ s₁)
    (h₂ : (getAbsoluteIdleTime sys v).run s₂ = .ok idle₂ s₂) :
    ∃ t', (resetIdleTime sys v).run (t, s₁) = .ok () (t', s₁) ∧
      (getIdleTime sys v).run (t', s₂) = .ok (idle₂ - idle₁) (t', s₂) := by
  refine ⟨{ t with lastProcIdleTime := Function.update t.lastProcIdleTime v idle₁ }, ?_, ?_⟩
  · simp only [resetIdleTime, EStateM.run_bind, run_onSnd, h₁]
    rfl
  · simp only [getIdleTime, EStateM.run_bind, run_onSnd, h₂]
    show EStateM.Result.ok (idle₂ - Function.update t.lastProcIdleTime v idle₁ v) _ = _
    rw [Function.update_self]

/-- The times of a core are measured just when the contents show them in the last line with its
name. -/
theorem measuresIdle_iff (hclock : 0 < sys.clockTicksPerSecond)
    (hfile₁ : sys.read (sys.sysfsRootPrefix ++ "/proc/stat") s₁ = some stat₁.text)
    (hfile₂ : sys.read (sys.sysfsRootPrefix ++ "/proc/stat") s₂ = some stat₂.text) :
    MeasuresIdle sys v s₁ s₂ stat₁ stat₂ ↔
      ∀ type, PROC_STAT_USER ≤ type → type ≤ PROC_STAT_GUEST_NICE →
        stat₁.Shows v type sys.clockTicksPerSecond ∧
          stat₂.Shows v type sys.clockTicksPerSecond := by
  constructor
  · intro h type hlow hhigh
    exact ⟨shows_of_readsTime hclock hfile₁ hlow hhigh (h.before type hlow hhigh),
      shows_of_readsTime hclock hfile₂ hlow hhigh (h.after type hlow hhigh)⟩
  · intro h
    have hbefore := fun type hlow hhigh =>
      readsTime_of_shows hclock hfile₁ hlow hhigh (h type hlow hhigh).1
    have hafter := fun type hlow hhigh =>
      readsTime_of_shows hclock hfile₂ hlow hhigh (h type hlow hhigh).2
    refine ⟨hbefore, hafter, fun ticks₁ ticks₂ n₁ n₂ hhas₁ hhas₂ hn₁ hn₂ t => ?_⟩
    have hidle₁ := (hbefore PROC_STAT_IDLE (by decide) (by decide)).own ticks₁ n₁ hhas₁ hn₁
    have hidle₂ := (hafter PROC_STAT_IDLE (by decide) (by decide)).own ticks₂ n₂ hhas₂ hn₂
    obtain ⟨t', hreset, hget⟩ := getIdleTime_of_reset t hidle₁ hidle₂
    have hdifference : ofTicks sys n₂ - ofTicks sys n₁ = ofTicks sys (n₂ - n₁) := by
      simp only [ofTicks, Int.cast_sub]
      ring
    exact ⟨t', hreset, hdifference ▸ hget⟩

/-- The contents with the same number for every tick of two processors. -/
def sampleStat (first second n : ℕ) (h : first ≠ second) : CpuStat where
  lines := [.aggregate [n], .cpu first (List.replicate 10 n),
    .cpu second (List.replicate 10 (n + 7)), .other "btime 5"]
  nodup := by
    show [first, second].Nodup
    simpa using h
  length := by
    intro id ticks hmem
    have hticks : ticks = List.replicate 10 n ∨ ticks = List.replicate 10 (n + 7) := by
      simp only [List.mem_cons, StatLine.cpu.injEq, reduceCtorEq, List.not_mem_nil, false_or,
        or_false] at hmem
      exact hmem.imp (·.2) (·.2)
    rcases hticks with rfl | rfl <;> exact List.length_replicate
  other := by simp [← Bool.not_eq_true, startsWith_iff_prefix]

/-- A system whose state is what `/proc/stat` shows. -/
def statSystem : System CpuStat where
  sysfsRootPrefix := ""
  read := fun fileName stat => if fileName = "/proc/stat" then some stat.text else none
  write := fun _ _ s => (false, s)
  readTsc := fun _ _ => none
  clockTicksPerSecond := 100
  maximizeUtilization := fun _ => pure ()
  resetUtilization := fun _ => pure ()

theorem statSystem_read (stat : CpuStat) :
    statSystem.read (statSystem.sysfsRootPrefix ++ "/proc/stat") stat = some stat.text := rfl

theorem sampleStat_shows {n type : ℕ} (hn : n + 7 < 2 ^ 31) (hlow : PROC_STAT_USER ≤ type)
    (hhigh : type ≤ PROC_STAT_GUEST_NICE) : (sampleStat 0 1 n (by decide)).Shows 1 type 100 := by
  have hlast : (sampleStat 0 1 n (by decide)).lines.reverse.find? (·.Names 1) =
      some (.cpu 1 (List.replicate 10 (n + 7))) := rfl
  have htick (m : ℕ) : (List.replicate 10 m)[type - PROC_STAT_USER]? = some m := by
    unfold PROC_STAT_USER PROC_STAT_GUEST_NICE at *
    rw [List.getElem?_replicate, if_pos (by omega)]
  have hcount (id m : ℕ) :
      (StatLine.cpu id (List.replicate 10 m)).count type = some (intOf (m : ℕ)) := by
    rw [StatLine.count, htick]
    rfl
  refine ⟨?_, ?_, ?_⟩
  · intro line hline hnames
    simp only [sampleStat, List.mem_cons, List.not_mem_nil, or_false] at hline
    rcases hline with rfl | rfl | rfl | rfl
    · exact hnames.elim
    · rw [hcount]
      exact Option.some_ne_none _
    · rw [hcount]
      exact Option.some_ne_none _
    · exact absurd hnames (by decide)
  · intro ticks m hhas hm
    have hticks : ticks = List.replicate 10 (n + 7) := by
      simpa [CpuStat.Has, sampleStat] using hhas
    rw [hticks, htick] at hm
    cases hm
    rw [CpuStat.lastCount, hlast, Option.bind_some, hcount, intOf_eq_self (by omega) (by omega)]
  · intro hnone
    exact absurd (by simp [CpuStat.Has, sampleStat]) (hnone (List.replicate 10 (n + 7)))

theorem measuresIdle_two :
    MeasuresIdle statSystem 1 (sampleStat 0 1 100 (by decide)) (sampleStat 0 1 300 (by decide))
      (sampleStat 0 1 100 (by decide)) (sampleStat 0 1 300 (by decide)) := by
  refine (measuresIdle_iff (by decide) rfl rfl).mpr fun type hlow hhigh => ?_
  exact ⟨sampleStat_shows (by decide) hlow hhigh, sampleStat_shows (by decide) hlow hhigh⟩

/-- The line of core 10 is taken for that of core 1. -/
theorem measuresIdle_not_ten : ¬∀ (sys : System CpuStat) (v : VirtualCoreId) (s₁ s₂ : CpuStat)
    (stat₁ stat₂ : CpuStat), 0 < sys.clockTicksPerSecond →
      sys.read (sys.sysfsRootPrefix ++ "/proc/stat") s₁ = some stat₁.text →
      sys.read (sys.sysfsRootPrefix ++ "/proc/stat") s₂ = some stat₂.text →
      MeasuresIdle sys v s₁ s₂ stat₁ stat₂ := by
  intro h
  let stat := sampleStat 1 10 100 (by decide)
  have hmeasures := h statSystem 1 stat stat stat stat (by decide) (statSystem_read stat)
    (statSystem_read stat)
  have hshows := shows_of_readsTime (by decide) (statSystem_read stat) (by decide) (by decide)
    (hmeasures.before PROC_STAT_IDLE (by decide) (by decide))
  have hcount := hshows.own (List.replicate 10 100) 100 (by simp [CpuStat.Has, stat, sampleStat]) rfl
  revert hcount
  decide

end TopologyLinux

end Mammut.Topology
