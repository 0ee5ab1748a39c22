import Mammut.Cpufreq.Cells

/-! `rollback` brings the domains back to a rollback point exactly when what was saved can still be
set, and the bounds of a domain that was under `userspace` have not changed: `rollback` does not
restore those. -/

namespace Mammut.Cpufreq

open Governor Kit.Programs Kit.Runs Utils Cells

/-- What a rollback point saves of a domain. -/
structure View where
  governor : Governor
  frequency : Frequency
  lowerBound : Frequency
  upperBound : Frequency
  deriving DecidableEq, Repr

/-- `frequency` is `0` of a domain that is not under `userspace`. -/
def View.Saved (v : View) : Prop := v.governor ≠ GOVERNOR_USERSPACE → v.frequency = 0

namespace DomainLinux

/-- What the files of a domain show. -/
def view (g : Governor) (d : DomainLinux) (c : Cells) : View where
  governor := governorIn g d c
  frequency :=
    if governorIn g d c = GOVERNOR_USERSPACE then frequencyIn "scaling_setspeed" d c else 0
  lowerBound := frequencyIn "scaling_min_freq" d c
  upperBound := frequencyIn "scaling_max_freq" d c

variable {d e : DomainLinux} {g : Governor} {f : Frequency} {c c' : Cells} {v : View}

theorem view_governor : (d.view g c).governor = governorIn g d c := by rw [view]

theorem view_saved : (d.view g c).Saved := by
  intro huser
  rw [view_governor] at huser
  rw [view, if_neg huser]

theorem view_congr (hsame : ∀ name, c' ⟨d.first, name⟩ = c ⟨d.first, name⟩) :
    d.view g c' = d.view g c := by
  have hgov : governorIn g d c' = governorIn g d c := by rw [governorIn, hsame, governorIn]
  have hfreq : ∀ name, frequencyIn name d c' = frequencyIn name d c := by
    intro name
    rw [frequencyIn, hsame, frequencyIn]
  simp only [view, hgov, hfreq]

/-- The saved values are accepted by the calls that set them. -/
def Accepts (d : DomainLinux) (v : View) : Prop :=
  if v.governor = GOVERNOR_USERSPACE then v.frequency ∈ d.availableFrequencies
  else v.lowerBound ∈ d.availableFrequencies ∧ v.upperBound ∈ d.availableFrequencies ∧
    v.lowerBound ≤ v.upperBound

instance : Decidable (d.Accepts v) := by unfold Accepts; infer_instance

/-- The files after the calls of `rollback` that set the saved values. -/
def restored (d : DomainLinux) (v : View) (c : Cells) : Cells :=
  let c := c.writeAll d.paths "scaling_governor" (enumStrings[v.governor.toUInt32.toNat]?.getD "")
  if v.governor = GOVERNOR_USERSPACE then
    c.writeAll d.paths "scaling_setspeed" (frequencyToString v.frequency)
  else
    (c.writeAll d.paths "scaling_min_freq" (frequencyToString v.lowerBound)).writeAll
      d.paths "scaling_max_freq" (frequencyToString v.upperBound)

theorem restored_of_path {file : File} (hpath : file.path ∉ d.paths) :
    d.restored v c file = c file := by
  unfold restored
  by_cases hgov : v.governor = GOVERNOR_USERSPACE <;> simp [hgov, writeAll_of_path hpath]

/-- Restoring a domain leaves the view of those with other directories. -/
theorem view_restored_other (he : e.OnFiles) (hdisj : ∀ path ∈ e.paths, path ∉ d.paths) :
    e.view g (d.restored v c) = e.view g c :=
  view_congr fun _ => restored_of_path (hdisj _ he.first_mem)

theorem governorIn_restored (h : d.OnFiles) (hnamed : v.governor ≠ GOVERNOR_NUM) :
    governorIn g d (d.restored v c) = v.governor := by
  have hname := getGovernorFromGovernorName_name g hnamed
  unfold governorIn restored
  by_cases huser : v.governor = GOVERNOR_USERSPACE
  · simpa [huser, writeAll_of_name, writeAll_of_mem h.first_mem] using hname
  · simpa [huser, writeAll_of_name, writeAll_of_mem h.first_mem] using hname

theorem view_restored (h : d.OnFiles) (hnamed : v.governor ≠ GOVERNOR_NUM) :
    d.view g (d.restored v c) =
      if v.governor = GOVERNOR_USERSPACE then
        { v with
          lowerBound := (d.view g c).lowerBound
          upperBound := (d.view g c).upperBound }
      else { v with frequency := 0 } := by
  have hgov := governorIn_restored (g := g) (c := c) h hnamed
  by_cases huser : v.governor = GOVERNOR_USERSPACE
  · rw [view, hgov, if_pos huser, if_pos huser]
    simp [restored, huser, frequencyIn, view, writeAll_of_name, writeAll_of_mem h.first_mem]
  · rw [view, hgov, if_neg huser, if_neg huser]
    simp [restored, huser, frequencyIn, writeAll_of_name, writeAll_of_mem h.first_mem]

/-- The values of `v` can be set, and those that `rollback` does not set are there. -/
def Restorable (g : Governor) (d : DomainLinux) (v : View) (c : Cells) : Prop :=
  d.Accepts v ∧ (v.governor = GOVERNOR_USERSPACE →
    (d.view g c).lowerBound = v.lowerBound ∧ (d.view g c).upperBound = v.upperBound)

theorem view_restored_iff (h : d.OnFiles) (hnamed : v.governor ≠ GOVERNOR_NUM)
    (hsaved : View.Saved v) :
    d.view g (d.restored v c) = v ↔ (v.governor = GOVERNOR_USERSPACE →
      (d.view g c).lowerBound = v.lowerBound ∧ (d.view g c).upperBound = v.upperBound) := by
  rw [view_restored h hnamed]
  obtain ⟨governor, frequency, lowerBound, upperBound⟩ := v
  by_cases huser : governor = GOVERNOR_USERSPACE
  · simp [huser]
  · have hzero : frequency = 0 := hsaved huser
    simp [huser, hzero]

end DomainLinux

namespace CpuFreq

variable {g : Governor} {f : Frequency} {c c' t : Cells} {d : DomainLinux} {v : View}
  {domains domains' : List DomainLinux} {rp : RollbackPoint} {i : ℕ}

open DomainLinux

/-- The rollback point that holds some views. -/
def pointOf (views : List View) : RollbackPoint where
  governors := views.map (·.governor)
  frequencies := views.map (·.frequency)
  lowerBounds := views.map (·.lowerBound)
  upperBounds := views.map (·.upperBound)

theorem pointOf_injective : Function.Injective pointOf := by
  intro views
  induction views with
  | nil =>
    intro views' heq
    have hgov := congrArg RollbackPoint.governors heq
    exact (List.map_eq_nil_iff.mp hgov.symm).symm
  | cons v rest ih =>
    intro views' heq
    cases views' with
    | nil => cases congrArg RollbackPoint.governors heq
    | cons v' rest' =>
      simp only [pointOf, List.map_cons, RollbackPoint.mk.injEq, List.cons.injEq] at heq
      obtain ⟨⟨hf, hfs⟩, ⟨hl, hls⟩, ⟨hu, hus⟩, ⟨hg, hgs⟩⟩ := heq
      have hrest : rest = rest' := ih (by simp [pointOf, hfs, hls, hus, hgs])
      obtain ⟨governor, frequency, lowerBound, upperBound⟩ := v
      obtain ⟨governor', frequency', lowerBound', upperBound'⟩ := v'
      simp_all

theorem getRollbackPoint_run (hfiles : ∀ d ∈ domains, d.OnFiles) :
    (getRollbackPoint (system g f) domains).run c =
      .ok (pointOf (domains.map (·.view g c))) c := by
  suffices h : ∀ (done : List View),
      (domains.foldlM (savePoint (system g f)) (pointOf done)).run c =
        .ok (pointOf (done ++ domains.map (·.view g c))) c by
    exact h []
  induction domains with
  | nil => intro done; simp
  | cons d rest ih =>
    intro done
    have hd := hfiles d List.mem_cons_self
    have hpoint : (savePoint (system g f) (pointOf done) d).run c =
        .ok (pointOf (done ++ [d.view g c])) c := by
      simp [savePoint, DomainLinux.getCurrentGovernor_run hd,
        DomainLinux.getCurrentFrequencyUserspace_run hd,
        DomainLinux.getCurrentGovernorBounds_run hd, pointOf, DomainLinux.view]
    rw [List.foldlM_cons, EStateM.run_bind, hpoint]
    have hrest := ih (fun d hmem => hfiles d (List.mem_cons_of_mem _ hmem)) (done ++ [d.view g c])
    simpa using hrest

theorem restorePoint_run (hd : domains[i]? = some d) (hfiles : d.OnFiles)
    (hgov : v.governor ∈ d.availableGovernors) (hfreq : rp.frequencies[i]? = some v.frequency)
    (hlower : rp.lowerBounds[i]? = some v.lowerBound)
    (hupper : rp.upperBounds[i]? = some v.upperBound) :
    if d.Accepts v then
      (restorePoint (system g f) domains rp v.governor i).run c = .ok () (d.restored v c)
    else ∃ e t, (restorePoint (system g f) domains rp v.governor i).run c = .error e t := by
  have hset := DomainLinux.setGovernor_run (g := g) (f := f) (c := c) hfiles v.governor
  rw [if_pos hgov] at hset
  have hnamed : v.governor ≠ GOVERNOR_NUM := fun hnum => hfiles.governors_named (hnum ▸ hgov)
  by_cases huser : v.governor = GOVERNOR_USERSPACE
  · have hcurrent : governorIn g d (c.writeAll d.paths "scaling_governor"
        (enumStrings[v.governor.toUInt32.toNat]?.getD "")) = GOVERNOR_USERSPACE := by
      rw [governorIn, writeAll_of_mem hfiles.first_mem, getGovernorFromGovernorName_name g hnamed,
        huser]
    have hfrom := setFrequencyUserspace_run (g := g) (f := f) (c := c.writeAll d.paths
      "scaling_governor" (enumStrings[v.governor.toUInt32.toNat]?.getD "")) hfiles v.frequency
    rw [huser] at hset hcurrent hfrom
    by_cases hmem : v.frequency ∈ d.availableFrequencies
    · rw [if_pos ⟨hcurrent, hmem⟩] at hfrom
      simp [restorePoint, domainAt, hd, hset, huser, element, hfreq, hfrom, Accepts, hmem, restored]
    · rw [if_neg fun hboth => hmem hboth.2] at hfrom
      simp [restorePoint, domainAt, hd, hset, huser, element, hfreq, hfrom, Accepts, hmem]
  · have hbounds := setGovernorBounds_run (g := g) (f := f) (c := c.writeAll d.paths
      "scaling_governor" (enumStrings[v.governor.toUInt32.toNat]?.getD "")) hfiles
      v.lowerBound v.upperBound
    by_cases haccepts : v.lowerBound ∈ d.availableFrequencies ∧
        v.upperBound ∈ d.availableFrequencies ∧ v.lowerBound ≤ v.upperBound
    · rw [if_pos haccepts] at hbounds
      simp [restorePoint, domainAt, hd, hset, huser, element, hlower, hupper, hbounds, Accepts,
        haccepts, restored]
    · rw [if_neg haccepts] at hbounds
      simp [restorePoint, domainAt, hd, hset, huser, element, hlower, hupper, hbounds, Accepts,
        haccepts]

/-- The files after `rollback` has set the views of some domains. -/
def restoreAll (pairs : List (DomainLinux × View)) (c : Cells) : Cells :=
  pairs.foldl (fun c p => p.1.restored p.2 c) c

theorem rollback_loop {pairs : List (DomainLinux × View)}
    (hfiles : ∀ p ∈ pairs, p.1.OnFiles ∧ p.2.governor ∈ p.1.availableGovernors)
    (todo done : List (DomainLinux × View)) (hpairs : pairs = done ++ todo) (c t : Cells) :
    EStateM.run (((todo.map fun p => p.2.governor).zipIdx done.length).forM fun (gov, i) =>
      restorePoint (system g f) (pairs.map Prod.fst) (pointOf (pairs.map Prod.snd)) gov i) c =
        .ok () t ↔ (∀ p ∈ todo, p.1.Accepts p.2) ∧ t = restoreAll todo c := by
  induction todo generalizing done c with
  | nil =>
    simp [restoreAll, eq_comm]
  | cons p rest ih =>
    obtain ⟨d, v⟩ := p
    obtain ⟨hd, hgov⟩ := hfiles (d, v) (by simp [hpairs])
    have hat : (pairs.map Prod.fst)[done.length]? = some d := by simp [hpairs]
    have hfreq : (pointOf (pairs.map Prod.snd)).frequencies[done.length]? = some v.frequency := by
      simp [hpairs, pointOf]
    have hlower : (pointOf (pairs.map Prod.snd)).lowerBounds[done.length]? = some v.lowerBound := by
      simp [hpairs, pointOf]
    have hupper : (pointOf (pairs.map Prod.snd)).upperBounds[done.length]? = some v.upperBound := by
      simp [hpairs, pointOf]
    have hpoint := restorePoint_run (g := g) (f := f) (c := c) hat hd hgov hfreq hlower hupper
    have hcons : EStateM.run (((((d, v) :: rest).map fun p => p.2.governor).zipIdx
        done.length).forM fun (gov, i) => restorePoint (system g f) (pairs.map Prod.fst)
          (pointOf (pairs.map Prod.snd)) gov i) c = EStateM.run
        (restorePoint (system g f) (pairs.map Prod.fst) (pointOf (pairs.map Prod.snd)) v.governor
          done.length >>= fun _ => ((rest.map fun p => p.2.governor).zipIdx
            (done.length + 1)).forM fun (gov, i) => restorePoint (system g f) (pairs.map Prod.fst)
              (pointOf (pairs.map Prod.snd)) gov i) c := rfl
    rw [hcons, EStateM.run_bind]
    by_cases haccepts : d.Accepts v
    · rw [if_pos haccepts] at hpoint
      rw [hpoint]
      have hrest := ih (done ++ [(d, v)]) (by simp [hpairs]) (d.restored v c)
      simpa [haccepts, restoreAll] using hrest
    · rw [if_neg haccepts] at hpoint
      obtain ⟨e, s, herror⟩ := hpoint
      simp [herror, haccepts]

/-- `rollback` returns if and only if each domain accepts what was saved of it. -/
theorem rollback_run {pairs : List (DomainLinux × View)}
    (hfiles : ∀ p ∈ pairs, p.1.OnFiles ∧ p.2.governor ∈ p.1.availableGovernors) (c t : Cells) :
    (rollback (system g f) (pairs.map Prod.fst) (pointOf (pairs.map Prod.snd))).run c =
        .ok () t ↔ (∀ p ∈ pairs, p.1.Accepts p.2) ∧ t = restoreAll pairs c := by
  have hgovs : (pointOf (pairs.map Prod.snd)).governors = pairs.map fun p => p.2.governor := by
    simp [pointOf]
  rw [rollback, hgovs]
  exact rollback_loop hfiles pairs [] rfl c t

/-- Restoring some domains leaves the view of a domain with other directories. -/
theorem view_restoreAll_other (pairs : List (DomainLinux × View)) (hd : d.OnFiles)
    (hdisj : ∀ p ∈ pairs, ∀ path ∈ d.paths, path ∉ p.1.paths) (c : Cells) :
    d.view g (restoreAll pairs c) = d.view g c := by
  induction pairs generalizing c with
  | nil => rfl
  | cons p rest ih =>
    have hrest := ih (fun q hq => hdisj q (List.mem_cons_of_mem _ hq)) (p.1.restored p.2 c)
    exact hrest.trans (view_restored_other hd (hdisj p List.mem_cons_self))

/-- The files that `rollback` leaves show what was saved of each domain if and only if the bounds
that it does not set are there before. -/
theorem view_restoreAll_iff {pairs : List (DomainLinux × View)}
    (hfiles : ∀ p ∈ pairs, p.1.OnFiles ∧ p.2.governor ≠ GOVERNOR_NUM ∧ p.2.Saved)
    (hdisj : pairs.Pairwise fun p q => ∀ path ∈ p.1.paths, path ∉ q.1.paths) (c : Cells) :
    (∀ p ∈ pairs, p.1.view g (restoreAll pairs c) = p.2) ↔
      ∀ p ∈ pairs, p.2.governor = GOVERNOR_USERSPACE →
        (p.1.view g c).lowerBound = p.2.lowerBound ∧
        (p.1.view g c).upperBound = p.2.upperBound := by
  induction pairs generalizing c with
  | nil => simp
  | cons p rest ih =>
    obtain ⟨d, v⟩ := p
    obtain ⟨hd, hnamed, hsaved⟩ := hfiles (d, v) List.mem_cons_self
    obtain ⟨hfirst, hrest⟩ := List.pairwise_cons.mp hdisj
    have htail := ih (fun q hq => hfiles q (List.mem_cons_of_mem _ hq)) hrest (d.restored v c)
    have hothers : ∀ q ∈ rest, q.1.view g (d.restored v c) = q.1.view g c := by
      intro q hq
      refine view_restored_other (hfiles q (List.mem_cons_of_mem _ hq)).1 fun path hpath hmem => ?_
      exact hfirst q hq path hmem hpath
    have hhead : d.view g (restoreAll rest (d.restored v c)) = d.view g (d.restored v c) :=
      view_restoreAll_other rest hd hfirst _
    rw [List.forall_mem_cons, List.forall_mem_cons]
    refine and_congr ?_ ?_
    · rw [← view_restored_iff hd hnamed hsaved, ← hhead]
      rfl
    · refine Iff.trans htail (forall₂_congr fun q hq => ?_)
      rw [hothers q hq]

theorem rollback_pairs_iff {pairs : List (DomainLinux × View)}
    (hfiles : ∀ p ∈ pairs, p.1.OnFiles ∧ p.2.governor ∈ p.1.availableGovernors ∧ p.2.Saved)
    (hdisj : pairs.Pairwise fun p q => ∀ path ∈ p.1.paths, path ∉ q.1.paths) (c : Cells) :
    (∃ t, (rollback (system g f) (pairs.map Prod.fst) (pointOf (pairs.map Prod.snd))).run c =
        .ok () t ∧ (getRollbackPoint (system g f) (pairs.map Prod.fst)).run t =
          .ok (pointOf (pairs.map Prod.snd)) t) ↔
      ∀ p ∈ pairs, p.1.Restorable g p.2 c := by
  have hnamed : ∀ p ∈ pairs, p.1.OnFiles ∧ p.2.governor ≠ GOVERNOR_NUM ∧ p.2.Saved := by
    intro p hp
    obtain ⟨hd, hgov, hsaved⟩ := hfiles p hp
    exact ⟨hd, fun hnum => hd.governors_named (hnum ▸ hgov), hsaved⟩
  have hpoint : ∀ t, (getRollbackPoint (system g f) (pairs.map Prod.fst)).run t =
      .ok (pointOf (pairs.map Prod.snd)) t ↔ ∀ p ∈ pairs, p.1.view g t = p.2 := by
    intro t
    have hdomains : ∀ d ∈ pairs.map Prod.fst, d.OnFiles := by
      intro d hd
      obtain ⟨p, hp, rfl⟩ := List.mem_map.mp hd
      exact (hfiles p hp).1
    rw [getRollbackPoint_run hdomains, List.map_map, ← List.map_inj_left]
    simp only [EStateM.Result.ok.injEq, and_true]
    exact pointOf_injective.eq_iff
  have hrun := rollback_run (g := g) (f := f) (fun p hp => ⟨(hfiles p hp).1, (hfiles p hp).2.1⟩) c
  constructor
  · rintro ⟨t, hok, hsame⟩
    obtain ⟨haccepts, rfl⟩ := (hrun t).mp hok
    have hbounds := (view_restoreAll_iff hnamed hdisj c).mp ((hpoint _).mp hsame)
    exact fun p hp => ⟨haccepts p hp, hbounds p hp⟩
  · intro hrestorable
    refine ⟨restoreAll pairs c, (hrun _).mpr ⟨fun p hp => (hrestorable p hp).1, rfl⟩, ?_⟩
    exact (hpoint _).mpr
      ((view_restoreAll_iff hnamed hdisj c).mpr fun p hp => (hrestorable p hp).2)

theorem set_of_getElem? {α : Type*} {l : List α} {a : α} (h : l[i]? = some a) : l.set i a = l := by
  refine List.ext_getElem? fun j => ?_
  rw [List.getElem?_set]
  split_ifs with hij hlt
  · rw [← hij, h]
  · rw [← hij, List.getElem?_eq_none (Nat.le_of_not_lt hlt)]
  · rfl

/-- What the calls of the clients change about the domains is not their hardware. -/
theorem run_hardware {σ : Type} {sys : System σ} {s s' : CpuFreqLinux σ}
    {calls : List (ℕ × DomainCall)} (run : Run (Step sys) s calls s') :
    s'.1.map hardware = s.1.map hardware := by
  refine run.invariant (fun t => t.1.map hardware = s.1.map hardware) rfl ?_
  rintro _ _ _ hkept ⟨hd⟩
  rename_i domains world i d call
  have hsame : (after (DomainLinux.call sys call) (d, world)).1.hardware = d.hardware :=
    after_of_keeps (call_hardware sys call) rfl
  have hat : (domains.map hardware)[i]? = some d.hardware := by simp [hd]
  rw [← hkept, List.map_set, hsame]
  exact set_of_getElem? hat

theorem onFiles_congr {d d' : DomainLinux} (h : d'.hardware = d.hardware) (hd : d.OnFiles) :
    d'.OnFiles := by
  simp only [hardware, Prod.mk.injEq] at h
  obtain ⟨hgov, hpaths, hepyc⟩ := h
  exact ⟨hepyc ▸ hd.not_epyc, hpaths ▸ hd.paths_ne_nil, hgov ▸ hd.governors_named⟩

/-- Whether domains share a directory depends on their hardware only. -/
theorem disjoint_congr (hsame : domains'.map hardware = domains.map hardware)
    (hdisj : domains.Pairwise fun d e => ∀ path ∈ d.paths, path ∉ e.paths) :
    domains'.Pairwise fun d e => ∀ path ∈ d.paths, path ∉ e.paths := by
  let R (h k : List Governor × List String × Bool) : Prop := ∀ path ∈ h.2.1, path ∉ k.2.1
  have hR : (domains.map hardware).Pairwise R := List.pairwise_map.mpr hdisj
  rw [← hsame] at hR
  exact List.pairwise_map.mp hR

theorem mem_zip_iff {α β : Type*} {l : List α} {m : List β} {p : α × β} :
    p ∈ l.zip m ↔ ∃ i : ℕ, l[i]? = some p.1 ∧ m[i]? = some p.2 := by
  rw [List.mem_iff_getElem?]
  exact exists_congr fun i => List.getElem?_zip_eq_some

/-- After any calls on domains whose governors were available, `rollback` returns and brings back
all that the rollback point holds, if and only if, when it is called, each domain accepts what was
saved of it and, if that is a userspace frequency, has the saved bounds.  That a domain has what
was saved is said with a rollback point that is taken then: it is the one that was taken before. -/
theorem rollback_restores_iff {g : Governor} {f : Frequency} {domains domains' : List DomainLinux}
    {c c' : Cells} {calls : List (ℕ × DomainCall)} (hfiles : ∀ d ∈ domains, d.OnFiles)
    (hdisj : domains.Pairwise fun d e => ∀ path ∈ d.paths, path ∉ e.paths)
    (hgov : ∀ d ∈ domains, governorIn g d c ∈ d.availableGovernors)
    (run : Run (Step (system g f)) (domains, c) calls (domains', c')) :
    ∃ rp, (getRollbackPoint (system g f) domains).run c = .ok rp c ∧
      ((∃ t, (rollback (system g f) domains' rp).run c' = .ok () t ∧
          (getRollbackPoint (system g f) domains').run t = .ok rp t) ↔
        ∀ (i : ℕ) (d d' : DomainLinux), domains[i]? = some d → domains'[i]? = some d' →
          d'.Restorable g (d.view g c) c') := by
  refine ⟨_, getRollbackPoint_run hfiles, ?_⟩
  have hsame : domains'.map hardware = domains.map hardware := run_hardware run
  have hlen : domains'.length = domains.length := by simpa using congrArg List.length hsame
  have hmem : ∀ p, p ∈ domains'.zip (domains.map (·.view g c)) ↔
      ∃ (i : ℕ) (d : DomainLinux), domains[i]? = some d ∧ domains'[i]? = some p.1 ∧
        d.view g c = p.2 := by
    intro p
    rw [mem_zip_iff]
    refine exists_congr fun i => ?_
    rw [List.getElem?_map, Option.map_eq_some_iff]
    constructor
    · rintro ⟨hd', d, hd, hview⟩
      exact ⟨d, hd, hd', hview⟩
    · rintro ⟨d, hd, hd', hview⟩
      exact ⟨hd', d, hd, hview⟩
  have hpairs : ∀ p ∈ domains'.zip (domains.map (·.view g c)),
      p.1.OnFiles ∧ p.2.governor ∈ p.1.availableGovernors ∧ p.2.Saved := by
    intro p hp
    obtain ⟨i, d, hd, hd', hview⟩ := (hmem p).mp hp
    have hhardware : p.1.hardware = d.hardware := by
      have hat := congrArg (fun l => l[i]?) hsame
      simpa [hd, hd'] using hat
    have hin := List.mem_of_getElem? hd
    refine ⟨onFiles_congr hhardware (hfiles d hin), ?_, ?_⟩
    · have hgovernors : p.1.availableGovernors = d.availableGovernors :=
        congrArg Prod.fst hhardware
      rw [hgovernors, ← hview, view_governor]
      exact hgov d hin
    · rw [← hview]
      exact view_saved
  have hfst : (domains'.zip (domains.map (·.view g c))).map Prod.fst = domains' :=
    List.map_fst_zip (by simp [hlen])
  have hsnd : (domains'.zip (domains.map (·.view g c))).map Prod.snd =
      domains.map (·.view g c) := List.map_snd_zip (by simp [hlen])
  have hdisjoint : (domains'.zip (domains.map (·.view g c))).Pairwise
      fun p q => ∀ path ∈ p.1.paths, path ∉ q.1.paths := by
    have hdomains := disjoint_congr hsame hdisj
    rw [← hfst] at hdomains
    exact List.pairwise_map.mp hdomains
  have hiff := rollback_pairs_iff (g := g) (f := f) hpairs hdisjoint c'
  rw [hfst, hsnd] at hiff
  refine hiff.trans ⟨fun h i d d' hd hd' => ?_, fun h p hp => ?_⟩
  · exact h (d', d.view g c) ((hmem _).mpr ⟨i, d, hd, hd', rfl⟩)
  · obtain ⟨i, d, hd, hd', hview⟩ := (hmem p).mp hp
    rw [← hview]
    exact h i d p.1 hd hd'

/-- A domain of two frequencies. -/
def oneDomain : DomainLinux where
  domainIdentifier := 0
  virtualCores := [0]
  availableGovernors := [GOVERNOR_USERSPACE, GOVERNOR_ONDEMAND]
  availableFrequencies := [1200000, 2400000]
  paths := ["/sys/devices/system/cpu/cpu0/cpufreq/"]
  msr := 0
  turboFrequencies := []
  epyc := false

theorem oneDomain_onFiles : oneDomain.OnFiles := ⟨rfl, by decide, by decide⟩

/-- The lowest frequency, under `userspace`. -/
def slow : Cells := fun file =>
  if file.name = "scaling_governor" then "userspace"
  else if file.name = "scaling_max_freq" then "2400000"
  else "1200000"

/-- The state after a client has changed the governor. -/
def demanded : DomainLinux × Cells :=
  after (DomainLinux.call (system GOVERNOR_NUM 0) (.setGovernor GOVERNOR_ONDEMAND))
    (oneDomain, slow)

theorem rollback_restores_iff_demanded : ∃ rp,
    (getRollbackPoint (system GOVERNOR_NUM 0) [oneDomain]).run slow = .ok rp slow ∧
      ((∃ t, (rollback (system GOVERNOR_NUM 0) [demanded.1] rp).run demanded.2 = .ok () t ∧
          (getRollbackPoint (system GOVERNOR_NUM 0) [demanded.1]).run t = .ok rp t) ↔
        ∀ (i : ℕ) (d d' : DomainLinux), [oneDomain][i]? = some d → [demanded.1][i]? = some d' →
          d'.Restorable GOVERNOR_NUM (d.view GOVERNOR_NUM slow) demanded.2) :=
  rollback_restores_iff (by simpa using oneDomain_onFiles) (by simp) (by decide +kernel)
    (Run.nil.snoc (.call (i := 0) (c := .setGovernor GOVERNOR_ONDEMAND) rfl))

/-- Bounds that are set under `userspace` stay after `rollback`. -/
theorem bounds_not_restored :
    oneDomain.OnFiles ∧
    oneDomain.view GOVERNOR_NUM slow = ⟨GOVERNOR_USERSPACE, 1200000, 1200000, 2400000⟩ ∧
    ∃ s' rp t rp',
      Run (Step (system GOVERNOR_NUM 0)) ([oneDomain], slow)
        [(0, .setGovernorBounds 1200000 1200000)] s' ∧
      (getRollbackPoint (system GOVERNOR_NUM 0) [oneDomain]).run slow = .ok rp slow ∧
      (rollback (system GOVERNOR_NUM 0) s'.1 rp).run s'.2 = .ok () t ∧
      (getRollbackPoint (system GOVERNOR_NUM 0) s'.1).run t = .ok rp' t ∧
      rp.upperBounds = [2400000] ∧ rp'.upperBounds = [1200000] :=
  ⟨oneDomain_onFiles, by decide +kernel, _, ⟨[1200000], [1200000], [2400000],
    [GOVERNOR_USERSPACE]⟩, _, ⟨[1200000], [1200000], [1200000], [GOVERNOR_USERSPACE]⟩,
    Run.nil.snoc (.call rfl), rfl, rfl, rfl, rfl, rfl⟩

end CpuFreq

end Mammut.Cpufreq
