import Mammut.Cxx
import Mammut.Task.Throttler
import Mammut.Utils.Text

/-! What an `ExecutionUnitLinux` reads from its `stat` file, from `task-linux.cpp`.  The fields are
split at the spaces, and so is the name of the command. -/

namespace Mammut.Task

open Utils

def PROC_STAT_STATE : ℕ := 2
def PROC_STAT_UTIME : ℕ := 13
def PROC_STAT_STIME : ℕ := 14
def PROC_STAT_NICE : ℕ := 18
def PROC_STAT_PROCESSOR : ℕ := 38
def PROC_STAT_EXIT_CODE : ℕ := 51

def PRIO_MIN : Int := -20

/-- The files under `/proc`: the contents of those that can be opened, and which exist. -/
structure ProcFiles where
  read : String → Option String
  existsFile : String → Bool

namespace ExecutionUnitLinux

variable (files : ProcFiles) (path : String)

def readFirstLineFromFile (fileName : String) : Except Exn String :=
  match files.read fileName with
  | some text => .ok (firstLine text)
  | none => .error (.runtimeError ("Impossible to open file " ++ fileName))

def isActive : Bool := files.existsFile path

/-- `EXECUTE_AND_CHECK_ACTIVE` around a command that sets a variable: its value, or `none` for
`false`. -/
def executeAndCheckActive {α : Type} (command : Except Exn α) : Except Exn (Option α) :=
  match command with
  | .ok a => .ok (some a)
  | .error (.runtimeError what) =>
    if !isActive files path then .ok none else .error (.runtimeError what)
  | .error e => .error e

def getStatFields : Except Exn (List String) := do
  return split (← readFirstLineFromFile files (path ++ "stat")) ' '

/-- `stringToInt(fields.at(i))`. -/
def intAt (fields : List String) (i : ℕ) : Except Exn Int :=
  match fields[i]? with
  | some field => .ok (intOf (stringToInt field))
  | none => .error .outOfRange

/-- A `double`, of two whole numbers. -/
def getCpuTime : Except Exn Int := do
  let statValues ← getStatFields files path
  let uTime ← intAt statValues PROC_STAT_UTIME
  let sTime ← intAt statValues PROC_STAT_STIME
  return uTime + sTime

def getPriority : Except Exn (Option UInt32) :=
  executeAndCheckActive files path do
    let nice ← intAt (← getStatFields files path) PROC_STAT_NICE
    return ⟨BitVec.ofInt 32 (-(PRIO_MIN + nice))⟩

def getVirtualCoreId : Except Exn (Option UInt32) :=
  executeAndCheckActive files path do
    let processor ← intAt (← getStatFields files path) PROC_STAT_PROCESSOR
    return ⟨BitVec.ofInt 32 processor⟩

end ExecutionUnitLinux

/-- A field by its number in `proc(5)`, of those from the state on. -/
def fieldOf (fields : List String) (k : ℕ) : Option String := fields[k - PROC_STAT_STATE]?

/-- The number in a field. -/
def valueOf (fields : List String) (k : ℕ) : Int := stringToInt ((fieldOf fields k).getD "")

/-- What the kernel says of a process: the name of its command, and the fields from the state on,
which are letters and numbers. -/
structure ProcStat where
  pid : ℕ
  comm : String
  fields : List String
  length : fields.length = 50
  word : ∀ f ∈ fields, f ≠ "" ∧ ∀ c ∈ f.toList, c.isAlphanum || c == '-'
  utime : 0 ≤ valueOf fields PROC_STAT_UTIME
  stime : 0 ≤ valueOf fields PROC_STAT_STIME
  nice : -20 ≤ valueOf fields PROC_STAT_NICE ∧ valueOf fields PROC_STAT_NICE ≤ 19
  processor : 0 ≤ valueOf fields PROC_STAT_PROCESSOR ∧ valueOf fields PROC_STAT_PROCESSOR < 2 ^ 31

namespace ProcStat

variable (s : ProcStat)

/-- The line of the file, with the fields after the name. -/
def line : List Char :=
  (intToString s.pid).toList ++
    ' ' :: ('(' :: s.comm.toList ++ ')' :: s.fields.flatMap fun f => ' ' :: f.toList)

def text : String := String.ofList (s.line ++ ['\n'])

/-- The words of the name in its parentheses, up to its first newline. -/
def commWords : List String := split (firstLine (String.ofList ('(' :: s.comm.toList ++ [')']))) ' '

/-- The name is one word. -/
def OneWord : Prop := ∀ c ∈ s.comm.toList, c ≠ ' ' ∧ c ≠ '\n'

variable {s}

theorem not_mem_field {c : Char} (hc : (c.isAlphanum || c == '-') = false) {f : String}
    (hf : f ∈ s.fields) : c ∉ f.toList := by
  intro hmem
  have h := (s.word f hf).2 c hmem
  rw [hc] at h
  cases h

theorem words (s : ProcStat) : ∀ f ∈ s.fields, ' ' ∉ f.toList ∧ f ≠ "" :=
  fun f hf => ⟨not_mem_field (by decide) hf, (s.word f hf).1⟩

theorem toList_firstLine (text : List Char) :
    (firstLine (String.ofList text)).toList = text.takeWhile (· ≠ '\n') := by
  simp [firstLine]

/-- The fields that are read: the process, the words of the name, and the others when the name does
not end the line. -/
theorem split_text (s : ProcStat) : split (firstLine s.text) ' ' =
    intToString s.pid :: (s.commWords ++ if '\n' ∈ s.comm.toList then [] else s.fields) := by
  have hpid : ∀ c ∈ (intToString s.pid).toList, decide (c ≠ '\n') = true := by
    intro c hc
    apply decide_eq_true
    rintro rfl
    exact not_mem_intToString (by decide) s.pid hc
  have hspace : ' ' ∉ (intToString s.pid).toList := not_mem_intToString (by decide) s.pid
  rw [split, text, toList_firstLine, line, List.append_assoc, List.takeWhile_append_of_pos hpid,
    List.cons_append, List.takeWhile_cons_of_pos (by decide), splitFrom_field hspace, commWords,
    split, toList_firstLine]
  by_cases hnewline : '\n' ∈ s.comm.toList
  · have hmem : '\n' ∈ '(' :: s.comm.toList := List.mem_cons_of_mem _ hnewline
    rw [if_pos hnewline, List.append_assoc, takeWhile_append_of_mem hmem (by decide),
      takeWhile_append_of_mem hmem (by decide)]
    simp
  · have hname : ∀ c ∈ '(' :: s.comm.toList ++ [')'], decide (c ≠ '\n') = true := by
      intro c hc
      apply decide_eq_true
      rintro rfl
      simp [hnewline] at hc
    have hall : ∀ c ∈ '(' :: s.comm.toList ++ ')' :: s.fields.flatMap (fun f => ' ' :: f.toList),
        decide (c ≠ '\n') = true := by
      intro c hc
      apply decide_eq_true
      rintro rfl
      rcases List.mem_append.mp hc with hc | hc
      · simp [hnewline] at hc
      · rcases List.mem_cons.mp hc with hc | hc
        · exact absurd hc (by decide)
        · obtain ⟨f, hf, hcf⟩ := List.mem_flatMap.mp hc
          rcases List.mem_cons.mp hcf with hcf | hcf
          · exact absurd hcf (by decide)
          · exact not_mem_field (by decide) hf hcf
    rw [if_neg hnewline, List.takeWhile_append_of_pos hall, List.takeWhile_eq_self_iff.mpr hname,
      List.takeWhile_cons_of_neg (by decide), List.append_nil,
      splitFrom_text_words (by decide) s.words]
    simp

/-- The words of a name that is one are the name. -/
theorem commWords_of_oneWord (h : s.OneWord) :
    '\n' ∉ s.comm.toList ∧ ∃ word, s.commWords = [word] := by
  have hnewline : '\n' ∉ s.comm.toList := fun hmem => (h _ hmem).2 rfl
  have hspace : ' ' ∉ '(' :: s.comm.toList ++ [')'] := by
    intro hmem
    have hcomm : ' ' ∈ s.comm.toList := by simpa using hmem
    exact (h _ hcomm).1 rfl
  refine ⟨hnewline, String.ofList ('(' :: s.comm.toList ++ [')']), ?_⟩
  rw [commWords, firstLine_eq_self (by simpa using hnewline), split, String.toList_ofList,
    splitFrom_last hspace (by simp), List.reverse_nil, List.nil_append]

/-- The words of the name begin with the one of its parenthesis. -/
theorem commWords_ne_nil (s : ProcStat) : s.commWords ≠ [] := by
  rw [commWords, split, toList_firstLine]
  apply splitFrom_ne_nil
  rw [List.cons_append, List.takeWhile_cons_of_pos (by decide)]
  exact List.cons_ne_nil _ _

/-- The fields are in their places just when the name is one word, or its other words are the
fields. -/
theorem prefix_iff (s : ProcStat) :
    s.fields <+: s.commWords.tail ++ (if '\n' ∈ s.comm.toList then [] else s.fields) ↔
      s.OneWord ∨ s.fields <+: s.commWords.tail := by
  constructor
  · intro h
    by_cases hnewline : '\n' ∈ s.comm.toList
    · rw [if_pos hnewline, List.append_nil] at h
      exact .inr h
    · rw [if_neg hnewline] at h
      by_cases hspace : ' ' ∈ s.comm.toList
      · right
        obtain ⟨fields, last, hsplit, hlast, hne⟩ :=
          splitFrom_last_mem (by decide : ')' ≠ ' ') [] ('(' :: s.comm.toList)
        have hwords : s.commWords = fields ++ [last] := by
          rw [commWords, firstLine_eq_self (by simpa using hnewline), split, String.toList_ofList,
            hsplit]
        have htail : s.commWords.tail = fields.tail ++ [last] := by
          rw [hwords, List.tail_append_of_ne_nil (hne (List.mem_cons_of_mem _ hspace))]
        rcases Nat.le_total s.fields.length s.commWords.tail.length with hlen | hlen
        · exact List.prefix_of_prefix_length_le h (List.prefix_append _ _) hlen
        · -- The last word of the name ends with a parenthesis, which no field has.
          have hprefix := List.prefix_of_prefix_length_le (List.prefix_append _ _) h hlen
          have hmem : last ∈ s.fields := hprefix.subset (by simp [htail])
          exact absurd hlast (not_mem_field (by decide) hmem)
      · left
        intro c hc
        exact ⟨fun heq => hspace (heq ▸ hc), fun heq => hnewline (heq ▸ hc)⟩
  · rintro (hword | hprefix)
    · obtain ⟨hnewline, word, hwords⟩ := commWords_of_oneWord hword
      rw [if_neg hnewline, hwords]
      exact List.prefix_refl _
    · exact hprefix.trans (List.prefix_append _ _)

end ProcStat

namespace ExecutionUnitLinux

variable {files : ProcFiles} {path : String} {s : ProcStat}

/-- What the documentation of the file promises of the four functions. -/
structure ReadsStat (files : ProcFiles) (path : String) (s : ProcStat) : Prop where
  fields : ∃ values, getStatFields files path = .ok values ∧
    ∀ k, PROC_STAT_STATE ≤ k → k ≤ PROC_STAT_EXIT_CODE → values[k]? = fieldOf s.fields k
  cpuTime : getCpuTime files path =
    .ok (valueOf s.fields PROC_STAT_UTIME + valueOf s.fields PROC_STAT_STIME)
  priority : getPriority files path =
    .ok (some ⟨BitVec.ofInt 32 (20 - valueOf s.fields PROC_STAT_NICE)⟩)
  virtualCoreId : getVirtualCoreId files path =
    .ok (some ⟨BitVec.ofInt 32 (valueOf s.fields PROC_STAT_PROCESSOR)⟩)

theorem getStatFields_eq (hfile : files.read (path ++ "stat") = some s.text) :
    getStatFields files path = .ok (intToString s.pid ::
      (s.commWords ++ if '\n' ∈ s.comm.toList then [] else s.fields)) := by
  rw [← ProcStat.split_text, getStatFields, readFirstLineFromFile, hfile]
  rfl

/-- The fields that are read are the numbered ones when they begin with them. -/
theorem fields_iff {pid : String} {words rest : List String} (hne : words ≠ []) :
    (∀ k, PROC_STAT_STATE ≤ k → k ≤ PROC_STAT_EXIT_CODE →
      (pid :: (words ++ rest))[k]? = fieldOf s.fields k) ↔ s.fields <+: words.tail ++ rest := by
  obtain ⟨word, words, rfl⟩ := List.exists_cons_of_ne_nil hne
  have hlength := s.length
  rw [List.tail_cons, List.prefix_iff_getElem?]
  constructor
  · intro h i hi
    have hfield := h (i + 2) (Nat.le_add_left ..) (by unfold PROC_STAT_EXIT_CODE; omega)
    have hat : fieldOf s.fields (i + 2) = some s.fields[i] := List.getElem?_eq_getElem hi
    rw [hat] at hfield
    exact hfield
  · intro h k hlow hhigh
    obtain ⟨i, rfl⟩ : ∃ i, k = i + 2 := ⟨k - 2, by unfold PROC_STAT_STATE at hlow; omega⟩
    have hi : i < s.fields.length := by unfold PROC_STAT_EXIT_CODE at hhigh; omega
    have hat : fieldOf s.fields (i + 2) = some s.fields[i] := List.getElem?_eq_getElem hi
    rw [hat]
    exact h i hi

/-- A field in its place is read as an `int`. -/
theorem intAt_eq {values : List String} {k : ℕ}
    (hvalues : values[k]? = fieldOf s.fields k) (hlow : PROC_STAT_STATE ≤ k)
    (hhigh : k ≤ PROC_STAT_EXIT_CODE) :
    intAt values k = .ok (intOf (valueOf s.fields k)) := by
  have hlength := s.length
  have hi : k - PROC_STAT_STATE < s.fields.length := by
    unfold PROC_STAT_STATE PROC_STAT_EXIT_CODE at *
    omega
  rw [intAt, hvalues, valueOf, fieldOf, List.getElem?_eq_getElem hi]
  rfl

/-- The fields are in their places just when those that are read begin with them. -/
theorem fields_of_text (hfile : files.read (path ++ "stat") = some s.text) :
    (∃ values, getStatFields files path = .ok values ∧
      ∀ k, PROC_STAT_STATE ≤ k → k ≤ PROC_STAT_EXIT_CODE → values[k]? = fieldOf s.fields k) ↔
      s.OneWord ∨ s.fields <+: s.commWords.tail := by
  rw [← s.prefix_iff, ← fields_iff s.commWords_ne_nil]
  constructor
  · rintro ⟨values, hvalues, hfields⟩
    rw [getStatFields_eq hfile] at hvalues
    cases hvalues
    exact hfields
  · intro hfields
    exact ⟨_, getStatFields_eq hfile, hfields⟩

section Values

variable {values : List String} (hvalues : getStatFields files path = .ok values)
  (hfields : ∀ k, PROC_STAT_STATE ≤ k → k ≤ PROC_STAT_EXIT_CODE →
    values[k]? = fieldOf s.fields k)

include hvalues hfields

theorem getCpuTime_eq : getCpuTime files path =
    .ok (intOf (valueOf s.fields PROC_STAT_UTIME) + intOf (valueOf s.fields PROC_STAT_STIME)) := by
  have hutime := intAt_eq (hfields PROC_STAT_UTIME (by decide) (by decide)) (by decide) (by decide)
  have hstime := intAt_eq (hfields PROC_STAT_STIME (by decide) (by decide)) (by decide) (by decide)
  rw [getCpuTime, hvalues]
  show (do
    let uTime ← intAt values PROC_STAT_UTIME
    let sTime ← intAt values PROC_STAT_STIME
    return uTime + sTime) = _
  rw [hutime, hstime]
  rfl

/-- The nice value is small, so that it is read as it is. -/
theorem getPriority_eq : getPriority files path =
    .ok (some ⟨BitVec.ofInt 32 (20 - valueOf s.fields PROC_STAT_NICE)⟩) := by
  have hnice := intAt_eq (hfields PROC_STAT_NICE (by decide) (by decide)) (by decide) (by decide)
  obtain ⟨hlow, hhigh⟩ := s.nice
  have hneg : -(PRIO_MIN + valueOf s.fields PROC_STAT_NICE) =
      20 - valueOf s.fields PROC_STAT_NICE := by
    unfold PRIO_MIN
    omega
  rw [intOf_eq_self (by omega) (by omega)] at hnice
  rw [getPriority, hvalues]
  show executeAndCheckActive files path (do
    let nice ← intAt values PROC_STAT_NICE
    return (⟨BitVec.ofInt 32 (-(PRIO_MIN + nice))⟩ : UInt32)) = _
  rw [hnice, ← hneg]
  rfl

theorem getVirtualCoreId_eq : getVirtualCoreId files path =
    .ok (some ⟨BitVec.ofInt 32 (valueOf s.fields PROC_STAT_PROCESSOR)⟩) := by
  have hprocessor :=
    intAt_eq (hfields PROC_STAT_PROCESSOR (by decide) (by decide)) (by decide) (by decide)
  obtain ⟨hlow, hhigh⟩ := s.processor
  rw [intOf_eq_self (by omega) (by omega)] at hprocessor
  rw [getVirtualCoreId, hvalues]
  show executeAndCheckActive files path (do
    let processor ← intAt values PROC_STAT_PROCESSOR
    return (⟨BitVec.ofInt 32 processor⟩ : UInt32)) = _
  rw [hprocessor]
  rfl

end Values

/-- The fields of a process are read, and the times that they spell, just when they stand where the
name of the command leaves them and the times are those of an `int`. -/
theorem readsStat_iff (hfile : files.read (path ++ "stat") = some s.text) :
    ReadsStat files path s ↔ (s.OneWord ∨ s.fields <+: s.commWords.tail) ∧
      valueOf s.fields PROC_STAT_UTIME < 2 ^ 31 ∧ valueOf s.fields PROC_STAT_STIME < 2 ^ 31 := by
  have hutime := intOf_le s.utime
  have hstime := intOf_le s.stime
  constructor
  · intro h
    obtain ⟨values, hvalues, hfields⟩ := h.fields
    have hsum := h.cpuTime
    rw [getCpuTime_eq hvalues hfields] at hsum
    -- Neither time is read as more than it is, so that both are read as they are.
    have heq := Except.ok.inj hsum
    refine ⟨(fields_of_text hfile).mp h.fields, hutime.2.mp ?_, hstime.2.mp ?_⟩
    · omega
    · omega
  · rintro ⟨hplace, hu, hs⟩
    have hread := (fields_of_text hfile).mpr hplace
    obtain ⟨values, hvalues, hfields⟩ := hread
    refine ⟨⟨values, hvalues, hfields⟩, ?_, getPriority_eq hvalues hfields,
      getVirtualCoreId_eq hvalues hfields⟩
    rw [getCpuTime_eq hvalues hfields, hutime.2.mpr hu, hstime.2.mpr hs]

/-- A process whose other fields are zeros. -/
def sampleStat (comm : String) : ProcStat where
  pid := 7
  comm := comm
  fields := "S" :: List.replicate 49 "0"
  length := by decide
  word := by
    intro f hf
    rcases List.mem_cons.mp hf with rfl | hf
    · simp
    · rw [List.eq_of_mem_replicate hf]
      simp
  utime := by decide
  stime := by decide
  nice := by decide
  processor := by decide

/-- Its file, under `/proc/7/`. -/
def sampleFiles (comm : String) : ProcFiles where
  read := fun fileName => if fileName = "/proc/7/stat" then some (sampleStat comm).text else none
  existsFile := fun _ => true

theorem readsStat_bash : ReadsStat (sampleFiles "bash") "/proc/7/" (sampleStat "bash") :=
  (readsStat_iff (by decide)).mpr ⟨.inl (by simp [ProcStat.OneWord, sampleStat]), by decide, by decide⟩

/-- The state of the command `tmux: server` is read as the end of its name. -/
theorem readsStat_not_tmux : ¬∀ (files : ProcFiles) (path : String) (s : ProcStat),
    files.read (path ++ "stat") = some s.text → ReadsStat files path s := by
  intro h
  obtain ⟨values, hvalues, hfields⟩ :=
    (h (sampleFiles "tmux: server") "/proc/7/" (sampleStat "tmux: server") (by decide)).fields
  rw [getStatFields_eq (s := sampleStat "tmux: server") (by decide)] at hvalues
  cases hvalues
  have hstate := hfields PROC_STAT_STATE (by decide) (by decide)
  revert hstate
  decide

end ExecutionUnitLinux

end Mammut.Task
