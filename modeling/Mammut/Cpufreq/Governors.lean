import Mammut.Cpufreq.Turbo
import Mammut.Utils.Words

/-! The governors that a domain finds available.  The lookup of a name leaves the variable that it
is to set as it is when no governor has the name, and no one has set that variable before: what is
documented is so exactly when it happens to hold `GOVERNOR_NUM` for each name that is not known. -/

namespace Mammut.Cpufreq

open Governor Utils

namespace Governor

/-- The name of a governor.  `GOVERNOR_NUM` has none. -/
def name (g : Governor) : Option String := enumStrings[g.toUInt32.toNat]?

/-- The governor that has a name. -/
def named (governorName : String) : Option Governor :=
  [GOVERNOR_CONSERVATIVE, GOVERNOR_ONDEMAND, GOVERNOR_INTERACTIVE, GOVERNOR_USERSPACE,
    GOVERNOR_POWERSAVE, GOVERNOR_PERFORMANCE].find? fun g => g.name = some governorName

end Governor

/-- `stringToEnum`, to a variable that holds the number `e`. -/
def stringToEnum (s : String) (e : UInt32) : UInt32 :=
  match enumStrings.idxOf? (firstWord s) with
  | some position => UInt32.ofNat position
  | none => e

/-- What the constructor of a domain makes of the names in `scaling_available_governors`; `locals`
are the values of the variables that the lookups are to set. -/
def readGovernors (locals : ℕ → UInt32) (text : String) : List UInt32 :=
  (words text).mapIdx fun i governorName => stringToEnum governorName (locals i)

/-- `_availableGovernors`. -/
def availableGovernors (locals : ℕ → UInt32) (text : String) : List UInt32 :=
  (readGovernors locals text).filter (· ≠ GOVERNOR_NUM.toUInt32)

/-- The lookup is that of a variable which holds a governor. -/
theorem getGovernorFromGovernorName_eq (g : Governor) (governorName : String) :
    getGovernorFromGovernorName g governorName =
      Governor.ofUInt32 (stringToEnum governorName g.toUInt32) := by
  rw [getGovernorFromGovernorName, stringToEnum]
  cases enumStrings.idxOf? (firstWord governorName) with
  | some position => rfl
  | none => exact (Governor.ofUInt32_toUInt32 g).symm

theorem toUInt32_injective : Function.Injective Governor.toUInt32 :=
  Function.LeftInverse.injective Governor.ofUInt32_toUInt32

section Lookup

variable {g : Governor} {w : String}

theorem named_of_name (h : g.name = some w) : Governor.named w = some g := by
  cases g with
  | GOVERNOR_NUM => cases h
  | _ =>
    cases h
    rfl

theorem name_of_named (h : Governor.named w = some g) : g.name = some w := by
  simpa using List.find?_some h

/-- A name is that of a governor just when it is one of the strings. -/
theorem known_iff : (∃ g : Governor, g.name = some w) ↔ w ∈ enumStrings := by
  constructor
  · rintro ⟨g, hg⟩
    exact List.mem_of_getElem? hg
  · intro hw
    rw [enumStrings, List.mem_cons, List.mem_cons, List.mem_cons, List.mem_cons, List.mem_cons,
      List.mem_singleton] at hw
    rcases hw with rfl | rfl | rfl | rfl | rfl | rfl
    · exact ⟨GOVERNOR_CONSERVATIVE, rfl⟩
    · exact ⟨GOVERNOR_ONDEMAND, rfl⟩
    · exact ⟨GOVERNOR_INTERACTIVE, rfl⟩
    · exact ⟨GOVERNOR_USERSPACE, rfl⟩
    · exact ⟨GOVERNOR_POWERSAVE, rfl⟩
    · exact ⟨GOVERNOR_PERFORMANCE, rfl⟩

/-- The lookup of a governor's name finds it. -/
theorem stringToEnum_name (h : g.name = some w) (e : UInt32) :
    stringToEnum w e = g.toUInt32 := by
  cases g with
  | GOVERNOR_NUM => cases h
  | _ =>
    cases h
    rfl

/-- The lookup of another name leaves the variable as it is. -/
theorem stringToEnum_unknown {text : String} (hword : w ∈ words text) (hw : w ∉ enumStrings)
    (e : UInt32) : stringToEnum w e = e := by
  rw [stringToEnum, firstWord_of_mem_words hword, List.idxOf?_eq_none_iff.mpr hw]

end Lookup

/-- What is documented of the governors that a domain finds in a file. -/
structure AsDocumented (locals : ℕ → UInt32) (text : String) : Prop where
  lookup : ∀ i w, (words text)[i]? = some w → ∀ g ≠ GOVERNOR_NUM,
    stringToEnum w (locals i) = g.toUInt32 ↔ g.name = some w
  sentinel : ∀ i w, (words text)[i]? = some w → (∀ g : Governor, g.name ≠ some w) →
    stringToEnum w (locals i) = GOVERNOR_NUM.toUInt32
  inverts : ∀ (g : Governor) w e, g.name = some w → stringToEnum w e = g.toUInt32
  available : availableGovernors locals text =
    ((words text).filterMap Governor.named).map Governor.toUInt32
  isGovernorAvailable : ∀ domainIdentifier first others sysfsRootPrefix frequencies g,
    (DomainLinux.new domainIdentifier first others sysfsRootPrefix frequencies
      ((readGovernors locals text).map Governor.ofUInt32)).isGovernorAvailable g = true →
    ∃ w ∈ words text, g.name = some w
  setGovernor : ∀ {σ : Type} (sys : System σ) (s s' : σ) domainIdentifier first others
    sysfsRootPrefix frequencies g,
    ((DomainLinux.new domainIdentifier first others sysfsRootPrefix frequencies
      ((readGovernors locals text).map Governor.ofUInt32)).setGovernor sys g).run s = .ok true s' →
    ∃ w ∈ words text, g.name = some w

/-- The variables hold `GOVERNOR_NUM` where the names are not known. -/
def Sentinel (locals : ℕ → UInt32) (text : String) : Prop :=
  ∀ i w, (words text)[i]? = some w → w ∉ enumStrings → locals i = GOVERNOR_NUM.toUInt32

section Documented

variable {locals : ℕ → UInt32} {text : String}

/-- What the lookup of a name gives is a governor of that name, or `GOVERNOR_NUM`. -/
theorem Sentinel.lookup_cases (h : Sentinel locals text) {i : ℕ} {w : String}
    (hw : (words text)[i]? = some w) :
    (∃ g : Governor, g.name = some w ∧ stringToEnum w (locals i) = g.toUInt32) ∨
    ((∀ g : Governor, g.name ≠ some w) ∧
      stringToEnum w (locals i) = GOVERNOR_NUM.toUInt32) := by
  by_cases hknown : ∃ g : Governor, g.name = some w
  · obtain ⟨g, hg⟩ := hknown
    exact .inl ⟨g, hg, stringToEnum_name hg (locals i)⟩
  · have hnot : w ∉ enumStrings := fun hmem => hknown (known_iff.mpr hmem)
    refine .inr ⟨not_exists.mp hknown, ?_⟩
    rw [stringToEnum_unknown (List.mem_of_getElem? hw) hnot, h i w hw hnot]

theorem Sentinel.lookup_iff (h : Sentinel locals text) {i : ℕ} {w : String}
    (hw : (words text)[i]? = some w) {g : Governor} (hg : g ≠ GOVERNOR_NUM) :
    stringToEnum w (locals i) = g.toUInt32 ↔ g.name = some w := by
  refine ⟨fun hlookup => ?_, fun hname => stringToEnum_name hname (locals i)⟩
  rcases h.lookup_cases hw with ⟨g', hname, heq⟩ | ⟨-, heq⟩
  · rw [toUInt32_injective (hlookup.symm.trans heq), hname]
  · exact absurd (toUInt32_injective (hlookup.symm.trans heq)) hg

/-- The governors that are read are those of the known names, in their order. -/
theorem filter_lookups {names : List String} (h : ∀ i w, names[i]? = some w →
    stringToEnum w (locals i) = ((Governor.named w).getD GOVERNOR_NUM).toUInt32) :
    (names.mapIdx fun i w => stringToEnum w (locals i)).filter (· ≠ GOVERNOR_NUM.toUInt32) =
      (names.filterMap Governor.named).map Governor.toUInt32 := by
  induction names generalizing locals with
  | nil => rfl
  | cons w names ih =>
    have hrest := @ih (fun i => locals (i + 1)) fun i v hv => h (i + 1) v hv
    rw [List.mapIdx_cons, List.filter_cons, h 0 w rfl, hrest, List.filterMap_cons]
    cases hnamed : Governor.named w with
    | none => rfl
    | some g =>
      have hg : g ≠ GOVERNOR_NUM := by
        rintro rfl
        cases name_of_named hnamed
      have hne : g.toUInt32 ≠ GOVERNOR_NUM.toUInt32 := fun heq => hg (toUInt32_injective heq)
      rw [Option.getD_some, if_pos (decide_eq_true hne)]
      rfl

/-- A governor is available only if it was read. -/
theorem read_of_available {domainIdentifier : DomainId} {first : VirtualCoreId}
    {others : List VirtualCoreId} {sysfsRootPrefix : String} {frequencies : List Frequency}
    {g : Governor} (h : (DomainLinux.new domainIdentifier first others sysfsRootPrefix frequencies
      ((readGovernors locals text).map Governor.ofUInt32)).isGovernorAvailable g = true) :
    g ≠ GOVERNOR_NUM ∧ ∃ i w, (words text)[i]? = some w ∧
      Governor.ofUInt32 (stringToEnum w (locals i)) = g := by
  rw [DomainLinux.isGovernorAvailable, List.contains_iff_mem] at h
  obtain ⟨hread, hg⟩ := List.mem_filter.mp h
  obtain ⟨n, hn, hofn⟩ := List.mem_map.mp hread
  obtain ⟨i, hi, hget⟩ := List.mem_mapIdx.mp hn
  exact ⟨by simpa using hg, i, (words text)[i], List.getElem?_eq_getElem hi, by rw [hget, hofn]⟩

theorem Sentinel.listed (h : Sentinel locals text) {domainIdentifier : DomainId}
    {first : VirtualCoreId} {others : List VirtualCoreId} {sysfsRootPrefix : String}
    {frequencies : List Frequency} {g : Governor}
    (havailable : (DomainLinux.new domainIdentifier first others sysfsRootPrefix frequencies
      ((readGovernors locals text).map Governor.ofUInt32)).isGovernorAvailable g = true) :
    ∃ w ∈ words text, g.name = some w := by
  obtain ⟨hg, i, w, hw, hread⟩ := read_of_available havailable
  refine ⟨w, List.mem_of_getElem? hw, ?_⟩
  rcases h.lookup_cases hw with ⟨g', hname, heq⟩ | ⟨-, heq⟩
  · rw [heq, Governor.ofUInt32_toUInt32] at hread
    rw [← hread, hname]
  · rw [heq, Governor.ofUInt32_toUInt32] at hread
    exact absurd hread.symm hg

/-- A governor that is not available is not set. -/
theorem available_of_setGovernor {σ : Type} {sys : System σ} {s s' : σ} {d : DomainLinux}
    {g : Governor} (hepyc : d.epyc = false) (h : (d.setGovernor sys g).run s = .ok true s') :
    d.isGovernorAvailable g = true := by
  rw [DomainLinux.setGovernor, if_neg (by simp [hepyc])] at h
  by_contra hnot
  have hcontains : d.availableGovernors.contains g = false := Bool.eq_false_iff.mpr hnot
  rw [hcontains] at h
  cases h

/-- The governors of a domain are as documented exactly when the variables hold `GOVERNOR_NUM` where
the names are not known. -/
theorem asDocumented_iff (locals : ℕ → UInt32) (text : String) :
    AsDocumented locals text ↔ Sentinel locals text := by
  constructor
  · intro h i w hw hnot
    have hsentinel := h.sentinel i w hw fun g hg => hnot (known_iff.mp ⟨g, hg⟩)
    rwa [stringToEnum_unknown (List.mem_of_getElem? hw) hnot] at hsentinel
  · intro h
    exact {
      lookup := fun i w hw g hg => h.lookup_iff hw hg
      sentinel := by
        intro i w hw hnone
        rcases h.lookup_cases hw with ⟨g, hname, -⟩ | ⟨-, heq⟩
        · exact absurd hname (hnone g)
        · exact heq
      inverts := fun g w e hname => stringToEnum_name hname e
      available := by
        refine filter_lookups fun i w hw => ?_
        rcases h.lookup_cases hw with ⟨g, hname, heq⟩ | ⟨hnone, heq⟩
        · rw [heq, named_of_name hname]
          rfl
        · cases hnamed : Governor.named w with
          | none => exact heq
          | some g => exact absurd (name_of_named hnamed) (hnone g)
      isGovernorAvailable := fun _ _ _ _ _ _ havailable => h.listed havailable
      setGovernor := fun _ _ _ _ _ _ _ _ _ hset =>
        h.listed (available_of_setGovernor rfl hset) }

/-- A governor that was not listed is available: the name of a newer one was looked up into a
variable that held the number of `GOVERNOR_USERSPACE`. -/
theorem not_asDocumented_schedutil :
    ¬ AsDocumented (fun _ => GOVERNOR_USERSPACE.toUInt32) "schedutil performance\n" ∧
    (DomainLinux.new 0 0 [] "" [] ((readGovernors (fun _ => GOVERNOR_USERSPACE.toUInt32)
      "schedutil performance\n").map Governor.ofUInt32)).isGovernorAvailable
        GOVERNOR_USERSPACE = true := by
  refine ⟨fun h => ?_, by decide +kernel⟩
  have hunknown : ∀ g : Governor, g.name ≠ some "schedutil" := by
    intro g
    cases g <;> decide
  exact absurd (h.sentinel 0 "schedutil" (by decide +kernel) hunknown) (by decide +kernel)

end Documented

end Mammut.Cpufreq
