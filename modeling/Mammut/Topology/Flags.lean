import Mammut.Topology.Linux
import Mammut.Utils.Words

/-! The flags of a virtual core, from `topology-linux.cpp`.  The section of the core in
`/proc/cpuinfo` is searched with a test that the line of every processor passes, and a flag by the
space after it. -/

set_option linter.dupNamespace false

namespace Mammut.Topology

open Utils

/-- The section of a processor in `/proc/cpuinfo`, with the white space before the colons. -/
structure InfoSection where
  processor : VirtualCoreId
  processorGap : List Char
  flagsGap : List Char
  flags : List String
  before : List String
  after : List String
  gap_space : ∀ c ∈ processorGap ++ flagsGap, isSpace c ∧ c ≠ '\n'
  flags_word : ∀ f ∈ flags, f ≠ "" ∧ ∀ c ∈ f.toList, isSpace c = false
  other : ∀ line ∈ before ++ after, '\n' ∉ line.toList ∧
    startsWith line "processor" = false ∧ startsWith line "flags" = false

namespace InfoSection

variable (sec : InfoSection)

def processorLine : String :=
  "processor" ++ String.ofList sec.processorGap ++ ": " ++ intToString sec.processor

/-- What stands before the flags in their line. -/
def label : String := "flags" ++ String.ofList sec.flagsGap ++ ":"

def flagsLine : String := sec.label ++ String.ofList (sec.flags.flatMap fun f => ' ' :: f.toList)

def lines : List String := sec.processorLine :: (sec.before ++ sec.flagsLine :: sec.after)

/-- The words of the line of the flags that follow a space: the flags, after those of a gap with
spaces. -/
def words : List String := (split sec.label ' ').tail ++ sec.flags

end InfoSection

/-- The contents of `/proc/cpuinfo`: a section for each processor. -/
structure CpuInfo where
  sections : List InfoSection
  nodup : (sections.map (·.processor)).Nodup

def CpuInfo.text (info : CpuInfo) : String := ofLines (info.sections.flatMap (·.lines))

namespace InfoSection

variable {sec : InfoSection}

theorem not_mem_gap (sec : InfoSection) {c : Char} (hc : isSpace c = false ∨ c = '\n') :
    c ∉ sec.processorGap ∧ c ∉ sec.flagsGap := by
  have hgap : c ∉ sec.processorGap ++ sec.flagsGap := by
    intro hmem
    obtain ⟨hspace, hnewline⟩ := sec.gap_space c hmem
    rcases hc with hc | hc
    · rw [hc] at hspace
      cases hspace
    · exact hnewline hc
  rwa [List.mem_append, not_or] at hgap

theorem not_mem_flags (sec : InfoSection) {c : Char} (hc : isSpace c) :
    ∀ f ∈ sec.flags, c ∉ f.toList := by
  intro f hf hmem
  have h := (sec.flags_word f hf).2 c hmem
  rw [hc] at h
  cases h

theorem flagsLine_newline : '\n' ∉ sec.flagsLine.toList := by
  rw [flagsLine, label]
  have hgap := (sec.not_mem_gap (.inr rfl)).2
  have hflags := sec.not_mem_flags (c := '\n') (by decide)
  simpa using ⟨hgap, hflags⟩

theorem processorLine_newline : '\n' ∉ sec.processorLine.toList := by
  rw [processorLine]
  have hgap := (sec.not_mem_gap (.inr rfl)).1
  have hnumber := not_mem_intToString (c := '\n') (by decide) sec.processor
  simpa using ⟨hgap, hnumber⟩

theorem lines_newline : ∀ line ∈ sec.lines, '\n' ∉ line.toList := by
  intro line hline
  rcases List.mem_cons.mp hline with rfl | hline
  · exact processorLine_newline
  · rcases List.mem_append.mp hline with hbefore | hline
    · exact (sec.other line (List.mem_append_left _ hbefore)).1
    · rcases List.mem_cons.mp hline with rfl | hafter
      · exact flagsLine_newline
      · exact (sec.other line (List.mem_append_right _ hafter)).1

theorem label_toList (sec : InfoSection) : ∃ text, sec.label.toList = text ++ [':'] :=
  ⟨("flags" ++ String.ofList sec.flagsGap).toList, by simp [label]⟩

theorem words_eq : (split sec.flagsLine ' ').tail = sec.words := by
  have hwords : ∀ f ∈ sec.flags, ' ' ∉ f.toList ∧ f ≠ "" := fun f hf =>
    ⟨sec.not_mem_flags (by decide) f hf, (sec.flags_word f hf).1⟩
  obtain ⟨text, htext⟩ := label_toList sec
  have hlabel : split sec.label ' ' ≠ [] := by
    rw [split, htext]
    apply splitFrom_ne_nil
    simp
  have hsplit : split sec.flagsLine ' ' = split sec.label ' ' ++ sec.flags := by
    rw [split, flagsLine, split, String.toList_append, String.toList_ofList, htext,
      List.append_assoc, List.singleton_append, splitFrom_text_words (by decide) hwords]
  rw [hsplit, words, List.tail_append_of_ne_nil hlabel]

/-- The space after a flag is found when the flag is not the last word. -/
theorem contains_flag_iff {f : String} (hf : ' ' ∉ f.toList) :
    (contains sec.flagsLine (" " ++ f ++ " ") || contains sec.flagsLine (" " ++ f ++ "\n")) = true ↔
      f ∈ sec.words.dropLast := by
  have hlast : contains sec.flagsLine (" " ++ f ++ "\n") = false := by
    rw [← Bool.not_eq_true, contains_iff]
    intro hfound
    exact flagsLine_newline (hfound.subset (by simp))
  rw [hlast, Bool.or_false, ← words_eq]
  rcases List.eq_nil_or_concat sec.flags with hflags | ⟨flags, last, hflags⟩
  · obtain ⟨text, htext⟩ := label_toList sec
    have hline : sec.flagsLine.toList = text ++ [':'] := by simp [flagsLine, hflags, htext]
    exact contains_between_iff hline (by decide) hf
  · -- The last character of the line is the one of its last flag.
    have hmem : last ∈ sec.flags := by simp [hflags]
    obtain ⟨hne, hspace⟩ := sec.flags_word last hmem
    obtain ⟨text, c, htext⟩ : ∃ text c, last.toList = text ++ [c] :=
      ⟨_, _, (List.dropLast_append_getLast (by simpa using hne)).symm⟩
    have hline : sec.flagsLine.toList =
        (sec.label.toList ++ (flags.flatMap (fun f => ' ' :: f.toList) ++ ' ' :: text)) ++ [c] := by
      simp [flagsLine, hflags, htext]
    refine contains_between_iff hline ?_ hf
    rintro rfl
    exact sec.not_mem_flags (c := ' ') (by decide) last hmem (by simp [htext])

end InfoSection

namespace VirtualCoreLinux

variable {v : VirtualCoreId} {flagName : String}

theorem startsWith_processor (sec : InfoSection) :
    startsWith sec.processorLine "processor" = true ∧ startsWith sec.processorLine "flags" = false ∧
      startsWith sec.processorLine (" " ++ intToString v) = false := by
  simp only [← Bool.not_eq_true, startsWith_iff_prefix]
  simp [InfoSection.processorLine]

theorem startsWith_flags (sec : InfoSection) :
    startsWith sec.flagsLine "flags" = true ∧ startsWith sec.flagsLine "processor" = false := by
  simp only [← Bool.not_eq_true, startsWith_iff_prefix]
  simp [InfoSection.flagsLine, InfoSection.label]

/-- Within a section the other lines are passed over. -/
theorem flagIn_append {lines : List String} (rest : List String)
    (h : ∀ line ∈ lines, startsWith line "processor" = false ∧ startsWith line "flags" = false) :
    flagIn v flagName true (lines ++ rest) = flagIn v flagName true rest := by
  induction lines with
  | nil => rfl
  | cons line lines ih =>
    obtain ⟨⟨hprocessor, hflags⟩, hlines⟩ := List.forall_mem_cons.mp h
    rw [List.cons_append, flagIn, hflags, hprocessor, Bool.false_and, if_neg Bool.false_ne_true,
      if_neg Bool.false_ne_true, ih hlines]

/-- The line after a section ends the search. -/
theorem flagIn_sections (sections : List InfoSection) :
    flagIn v flagName true (sections.flatMap (·.lines)) = false := by
  cases sections with
  | nil => rfl
  | cons sec sections =>
    obtain ⟨hprocessor, hflags, -⟩ := startsWith_processor (v := v) sec
    rw [List.flatMap_cons, InfoSection.lines, List.cons_append, flagIn, hflags, hprocessor,
      Bool.false_and, if_neg Bool.false_ne_true, if_pos rfl]

/-- The flag is looked for in the first section, whatever the virtual core. -/
theorem flagIn_eq (first : InfoSection) (rest : List InfoSection) (hflag : ' ' ∉ flagName.toList) :
    flagIn v flagName false ((first :: rest).flatMap (·.lines)) =
      decide (flagName ∈ first.words.dropLast) := by
  obtain ⟨hprocessor, -, hnumber⟩ := startsWith_processor (v := v) first
  obtain ⟨hflags, hnot⟩ := startsWith_flags first
  have hbefore : ∀ line ∈ first.before,
      startsWith line "processor" = false ∧ startsWith line "flags" = false :=
    fun line hline => (first.other line (List.mem_append_left _ hline)).2
  have hafter : ∀ line ∈ first.after,
      startsWith line "processor" = false ∧ startsWith line "flags" = false :=
    fun line hline => (first.other line (List.mem_append_right _ hline)).2
  rw [List.flatMap_cons, InfoSection.lines, List.cons_append, flagIn, hprocessor, hnumber,
    Bool.not_false, Bool.and_true, List.append_assoc, flagIn_append _ hbefore, List.cons_append,
    flagIn, hflags, hnot, Bool.true_and, flagIn_append _ hafter, flagIn_sections,
    if_neg Bool.false_ne_true]
  by_cases hfound : flagName ∈ first.words.dropLast
  · rw [if_pos (InfoSection.contains_flag_iff hflag |>.mpr hfound), decide_eq_true hfound]
  · rw [if_neg fun h => hfound (InfoSection.contains_flag_iff hflag |>.mp h),
      decide_eq_false hfound]

variable {σ : Type} {sys : System σ} {s : σ} {info : CpuInfo} {first sec : InfoSection}

/-- The answer is that of the first section. -/
theorem hasFlag_eq (hfile : sys.read (sys.sysfsRootPrefix ++ "/proc/cpuinfo") s = some info.text)
    (hfirst : info.sections.head? = some first) (hflag : ' ' ∉ flagName.toList) :
    (hasFlag sys v flagName).run s = .ok (decide (flagName ∈ first.words.dropLast)) s := by
  obtain ⟨rest, hrest⟩ := List.head?_eq_some_iff.mp hfirst
  have hexists : (sys.existsFile (sys.sysfsRootPrefix ++ "/proc/cpuinfo")).run s = .ok true s := by
    simp [System.existsFile, hfile]
  have hlines : ∀ line ∈ info.sections.flatMap (·.lines), '\n' ∉ line.toList := by
    intro line hline
    obtain ⟨sec, -, hsec⟩ := List.mem_flatMap.mp hline
    exact InfoSection.lines_newline line hsec
  have hread : (sys.readFile (sys.sysfsRootPrefix ++ "/proc/cpuinfo")).run s =
      .ok (info.sections.flatMap (·.lines)) s := by
    rw [sys.readFile_run hfile, CpuInfo.text, split_ofLines hlines]
  have hanswer := flagIn_eq (v := v) first rest hflag
  rw [← hrest] at hanswer
  rw [hasFlag, EStateM.run_bind, hexists]
  simp [hread, hanswer]

/-- A flag of a virtual core is answered right just when it is one of the core exactly if it stands,
not as the last, among those of the first section. -/
theorem hasFlag_iff (hfile : sys.read (sys.sysfsRootPrefix ++ "/proc/cpuinfo") s = some info.text)
    (hfirst : info.sections.head? = some first) (_ : sec ∈ info.sections)
    (hflag : ∀ c ∈ flagName.toList, isSpace c = false) :
    (hasFlag sys sec.processor flagName).run s = .ok (decide (flagName ∈ sec.flags)) s ↔
      (flagName ∈ first.words.dropLast ↔ flagName ∈ sec.flags) := by
  have hspace : ' ' ∉ flagName.toList := fun hmem => absurd (hflag _ hmem) (by decide)
  rw [hasFlag_eq hfile hfirst hspace]
  constructor
  · intro h
    exact decide_eq_decide.mp (EStateM.Result.ok.inj h).1
  · intro h
    rw [decide_eq_decide.mpr h]

/-- A section of two flags, of a processor. -/
def sampleSection (processor : VirtualCoreId) : InfoSection where
  processor := processor
  processorGap := ['\t']
  flagsGap := ['\t', '\t']
  flags := ["fpu", "ht"]
  before := ["vendor_id\t: GenuineIntel"]
  after := [""]
  gap_space := by simp [isSpace]
  flags_word := by simp [isSpace]
  other := by simp [← Bool.not_eq_true, startsWith_iff_prefix]

def sampleInfo : CpuInfo where
  sections := [sampleSection 0, sampleSection 1]
  nodup := by decide

/-- A system with that file. -/
def sampleSystem : System Unit where
  sysfsRootPrefix := ""
  read := fun fileName _ => if fileName = "/proc/cpuinfo" then some sampleInfo.text else none
  write := fun _ _ s => (false, s)
  readTsc := fun _ _ => none
  clockTicksPerSecond := 100
  maximizeUtilization := fun _ => pure ()
  resetUtilization := fun _ => pure ()

theorem hasFlag_fpu :
    (hasFlag sampleSystem 1 "fpu").run () = .ok (decide ("fpu" ∈ (sampleSection 1).flags)) () := by
  have hfile : sampleSystem.read (sampleSystem.sysfsRootPrefix ++ "/proc/cpuinfo") () =
      some sampleInfo.text := rfl
  have hfirst : sampleInfo.sections.head? = some (sampleSection 0) := rfl
  have hsec : sampleSection 1 ∈ sampleInfo.sections := List.mem_cons_of_mem _ List.mem_cons_self
  exact (hasFlag_iff hfile hfirst hsec (by simp [isSpace])).mpr (by decide)

/-- The last flag of a line is not found. -/
theorem hasFlag_not_last : ¬∀ (info : CpuInfo) (sys : System Unit) (s : Unit) (sec : InfoSection)
    (flagName : String),
    sys.read (sys.sysfsRootPrefix ++ "/proc/cpuinfo") s = some info.text → sec ∈ info.sections →
      (∀ c ∈ flagName.toList, isSpace c = false) →
      (hasFlag sys sec.processor flagName).run s = .ok (decide (flagName ∈ sec.flags)) s := by
  intro h
  have hfile : sampleSystem.read (sampleSystem.sysfsRootPrefix ++ "/proc/cpuinfo") () =
      some sampleInfo.text := rfl
  have hfirst : sampleInfo.sections.head? = some (sampleSection 0) := rfl
  have hsec : sampleSection 1 ∈ sampleInfo.sections := List.mem_cons_of_mem _ List.mem_cons_self
  have hanswer : (hasFlag sampleSystem 1 "ht").run () =
      .ok (decide ("ht" ∈ (sampleSection 0).words.dropLast)) () :=
    hasFlag_eq hfile hfirst (by decide)
  have hclaim := h sampleInfo sampleSystem () (sampleSection 1) "ht" hfile hsec (by simp [isSpace])
  have heq := (EStateM.Result.ok.inj (hanswer.symm.trans hclaim)).1
  revert heq
  decide

end VirtualCoreLinux

end Mammut.Topology
