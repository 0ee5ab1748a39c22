import Mammut.Task.Throttler

/-! The requests that the clients make between two drains of the throttler, and what the drain makes
of them.  `throttle` decides with the state that the last drain has left, and the next one handles
all the requests to add before those to remove. -/

namespace Mammut.Task

open Kit

variable {H : Type}

/-- A call of a client on a handler. -/
inductive Request (H : Type)
  | throttle (process : H) (percentage : ℚ)
  | removeThrottling (process : H)
  deriving DecidableEq

namespace Request

def process : Request H → H
  | throttle process _ => process
  | removeThrottling process => process

def toAdd : Request H → Option (H × ℚ)
  | throttle process percentage => some (process, percentage)
  | removeThrottling _ => none

def toRemove : Request H → Option H
  | throttle _ _ => none
  | removeThrottling process => some process

/-- The requests to throttle these handlers. -/
def throttles (calls : List (H × ℚ)) : List (Request H) := calls.map fun c => throttle c.1 c.2

variable {p : H} {rs : List (Request H)}

@[simp] theorem throttles_toAdd (calls : List (H × ℚ)) :
    (throttles calls).filterMap toAdd = calls := by
  simp [throttles, Function.comp_def, toAdd]

@[simp] theorem throttles_toRemove (calls : List (H × ℚ)) :
    (throttles calls).filterMap toRemove = [] := by
  simp [throttles, toRemove]

@[simp] theorem throttles_process (calls : List (H × ℚ)) :
    (throttles calls).map process = calls.map Prod.fst := by
  simp [throttles, process]

theorem throttles_append (calls calls' : List (H × ℚ)) :
    throttles (calls ++ calls') = throttles calls ++ throttles calls' := List.map_append

/-- Without removals, there are only calls to throttle. -/
theorem eq_throttles (h : ∀ p, removeThrottling p ∉ rs) : rs = throttles (rs.filterMap toAdd) := by
  induction rs with
  | nil => rfl
  | cons r rs ih =>
    have hrs := ih fun p hp => h p (List.mem_cons_of_mem _ hp)
    cases r with
    | throttle p x => exact congrArg (throttle p x :: ·) hrs
    | removeThrottling p => exact absurd List.mem_cons_self (h p)

theorem mem_toRemove : p ∈ rs.filterMap toRemove ↔ removeThrottling p ∈ rs := by
  rw [List.mem_filterMap]
  constructor
  · rintro ⟨r, hr, hp⟩
    cases r with
    | throttle q x => cases hp
    | removeThrottling q => cases hp; exact hr
  · exact fun hr => ⟨_, hr, rfl⟩

variable [LinearOrder H]

/-- The percentage of `p` after the request, if it had this one before. -/
def applied (p : H) (percentage : Option ℚ) : Request H → Option ℚ
  | throttle q x => if q = p then some x else percentage
  | removeThrottling q => if q = p then none else percentage

/-- The percentage of `p` after the requests, one after the other. -/
def inOrder (p : H) (percentage : Option ℚ) (requests : List (Request H)) : Option ℚ :=
  requests.foldl (applied p) percentage

/-- Some requests leave a percentage, whatever it was, or do not depend on it. -/
theorem inOrder_cases (p : H) (rs : List (Request H)) :
    (∀ o, inOrder p o rs = o) ∨ ∃ y, ∀ o, inOrder p o rs = y := by
  induction rs with
  | nil => exact .inl fun _ => rfl
  | cons r rs ih =>
    obtain hsame | ⟨y, hy⟩ := ih
    · cases r with
      | throttle q x =>
        by_cases hq : q = p
        · exact .inr ⟨some x, fun o => (hsame _).trans (if_pos hq)⟩
        · exact .inl fun o => (hsame _).trans (if_neg hq)
      | removeThrottling q =>
        by_cases hq : q = p
        · exact .inr ⟨none, fun o => (hsame _).trans (if_pos hq)⟩
        · exact .inl fun o => (hsame _).trans (if_neg hq)
    · exact .inr ⟨y, fun o => hy _⟩

theorem inOrder_of_some {x : ℚ} (h : inOrder p none rs = some x) (o : Option ℚ) :
    inOrder p o rs = some x := by
  obtain hsame | ⟨y, hy⟩ := inOrder_cases p rs
  · cases (hsame none).symm.trans h
  · rw [hy, ← hy none, h]

theorem inOrder_append (o : Option ℚ) (rs rs' : List (Request H)) :
    inOrder p o (rs ++ rs') = inOrder p (inOrder p o rs) rs' := List.foldl_append

theorem inOrder_throttles_none_iff {o : Option ℚ} {calls : List (H × ℚ)} :
    inOrder p o (throttles calls) = none ↔ o = none ∧ p ∉ calls.map Prod.fst := by
  induction calls generalizing o with
  | nil => simp [throttles, inOrder]
  | cons c calls ih =>
    apply ih.trans
    by_cases hp : c.1 = p
    · simp [applied, hp]
    · simp [applied, hp, Ne.symm hp]

end Request

variable [LinearOrder H]

namespace System

variable (env : Processes H)

/-- `ProcessHandlerLinux::removeThrottling`. -/
def removeThrottling (s : System H) (process : H) : Except Exn Bool × System H :=
  (.ok (s.alive (env.pid process)), { s with thread := s.thread.removeThrottling process })

def request (s : System H) : Request H → Except Exn Bool × System H
  | .throttle process percentage => s.throttle env process percentage
  | .removeThrottling process => s.removeThrottling env process

/-- The requests that are accepted, which are those that do not throw, and the state after all. -/
def requests (s : System H) : List (Request H) → List (Request H) × System H
  | [] => ([], s)
  | r :: rs =>
    match s.request env r with
    | (.ok _, t) => (r :: (requests t rs).1, (requests t rs).2)
    | (.error _, t) => requests t rs

/-- What `throttle` checks. -/
def Accepts (s : System H) : Request H → Prop
  | .throttle process percentage => env.pid process ≠ env.self ∧ 0 < percentage ∧
      percentage ≤ 100 ∧ (s.thread.throttlingValues.find? process ≠ none ∨
        s.thread.sumPercentages + percentage ≤ 100)
  | .removeThrottling _ => True

variable {env} {s : System H}

/-- The queues after some accepted requests. -/
def queued (s : System H) (accepted : List (Request H)) : System H :=
  { s with thread := { s.thread with
      processesToAdd := s.thread.processesToAdd ++ accepted.filterMap Request.toAdd
      processesToRemove := s.thread.processesToRemove ++ accepted.filterMap Request.toRemove } }

theorem queued_queued (rs rs' : List (Request H)) :
    (s.queued rs).queued rs' = s.queued (rs ++ rs') := by
  simp [queued, List.filterMap_append]

theorem request_cases (env : Processes H) (s : System H) (r : Request H) :
    (s.Accepts env r ∧ ∃ b, s.request env r = (.ok b, s.queued [r])) ∨
      ∃ e, s.request env r = (.error e, s) := by
  cases r with
  | removeThrottling p =>
    refine .inl ⟨trivial, s.alive (env.pid p), ?_⟩
    simp [request, removeThrottling, queued, Request.toAdd, Request.toRemove,
      ThrottlerThread.removeThrottling]
  | throttle p x =>
    simp only [request, throttle, ThrottlerThread.throttle]
    split_ifs with hself hrange hsum
    · exact .inr ⟨_, rfl⟩
    · exact .inr ⟨_, rfl⟩
    · exact .inr ⟨_, rfl⟩
    · refine .inl ⟨⟨hself, ?_⟩, s.alive (env.pid p), ?_⟩
      · rw [not_or, not_le, not_lt] at hrange
        rw [not_and_or, not_lt] at hsum
        exact ⟨hrange.1, hrange.2, hsum⟩
      · simp [queued, Request.toAdd, Request.toRemove]

theorem requests_sublist (env : Processes H) (rs : List (Request H)) (s : System H) :
    (s.requests env rs).1.Sublist rs := by
  induction rs generalizing s with
  | nil => exact .slnil
  | cons r rs ih =>
    rw [requests]
    split
    · exact (ih _).cons_cons r
    · exact (ih _).cons r

/-- The requests only fill the queues. -/
theorem requests_queued (env : Processes H) (rs : List (Request H)) (s : System H) :
    (s.requests env rs).2 = s.queued (s.requests env rs).1 ∧
      ∀ r ∈ (s.requests env rs).1, s.Accepts env r := by
  induction rs generalizing s with
  | nil => simp [requests, queued]
  | cons r rs ih =>
    rw [requests]
    obtain ⟨haccepts, b, hr⟩ | ⟨e, hr⟩ := request_cases env s r
    · obtain ⟨hstate, hothers⟩ := ih (s.queued [r])
      simp only [hr]
      refine ⟨?_, List.forall_mem_cons.mpr ⟨haccepts, hothers⟩⟩
      rw [hstate, queued_queued, List.singleton_append]
    · simp only [hr]
      exact ih s

end System

namespace ThrottlerThread

variable {t : ThrottlerThread H} {p : H}

theorem find?_addProcess (r : H × ℚ) : (t.addProcess r).throttlingValues.find? p =
    if p = r.1 ∧ (t.throttlingValues.find? r.1 ≠ none ∨ t.sumPercentages + r.2 ≤ 100) then some r.2
    else t.throttlingValues.find? p := by
  unfold addProcess
  cases hfind : t.throttlingValues.find? r.1 with
  | some percentage => simp [OrdMap.find?_assign hfind]
  | none =>
    by_cases hsum : t.sumPercentages + r.2 ≤ 100 <;> simp [hsum, OrdMap.find?_insert hfind]

theorem sumPercentages_addProcess (r : H × ℚ) : (t.addProcess r).sumPercentages =
    if t.throttlingValues.find? r.1 = none ∧ t.sumPercentages + r.2 ≤ 100 then
      t.sumPercentages + r.2
    else t.sumPercentages := by
  unfold addProcess
  cases t.throttlingValues.find? r.1 with
  | some percentage => simp
  | none => by_cases hsum : t.sumPercentages + r.2 ≤ 100 <;> simp [hsum]

theorem find?_removeProcess (q : H) : (t.removeProcess q).throttlingValues.find? p =
    if p = q then none else t.throttlingValues.find? p := by
  unfold removeProcess
  cases hfind : t.throttlingValues.find? q with
  | some percentage => simp
  | none =>
    split_ifs with hp
    · rw [hp, hfind]
    · rfl

theorem find?_addAll_of_not_requested {requests : List (H × ℚ)} (h : p ∉ requests.map Prod.fst) :
    (requests.foldl addProcess t).throttlingValues.find? p = t.throttlingValues.find? p := by
  induction requests generalizing t with
  | nil => rfl
  | cons r rest ih =>
    rw [List.map_cons, List.mem_cons, not_or] at h
    rw [List.foldl_cons, ih h.2, find?_addProcess, if_neg fun hr => h.1 hr.1]

theorem find?_addAll_of_throttled (requests : List (H × ℚ))
    (h : t.throttlingValues.find? p ≠ none) :
    (requests.foldl addProcess t).throttlingValues.find? p ≠ none :=
  List.foldlRecOn (motive := fun u : ThrottlerThread H => u.throttlingValues.find? p ≠ none)
    requests addProcess h fun u hu r _ => by
      rw [find?_addProcess]
      split_ifs
      · exact Option.some_ne_none _
      · exact hu

/-- A handler that is throttled in the end has the percentage of its last request. -/
theorem find?_addAll (requests : List (H × ℚ)) {o : Option ℚ}
    (h : t.throttlingValues.find? p = none ∨ t.throttlingValues.find? p = o) :
    (requests.foldl addProcess t).throttlingValues.find? p = none ∨
      (requests.foldl addProcess t).throttlingValues.find? p =
        Request.inOrder p o (Request.throttles requests) := by
  induction requests generalizing t o with
  | nil => exact h
  | cons r rest ih =>
    apply ih
    rw [find?_addProcess, Request.applied]
    by_cases hp : p = r.1
    · subst hp
      by_cases hfits : t.throttlingValues.find? r.1 ≠ none ∨ t.sumPercentages + r.2 ≤ 100
      · simp [hfits]
      · rw [not_or, not_not] at hfits
        simp [hfits]
    · simpa [hp, Ne.symm hp] using h

/-- Every wanted handler that is not throttled has a request that fits in what the requests before
it leave of 100%; the first one is granted. -/
def Fits (wanted throttled : List H) (sum : ℚ) : List (H × ℚ) → Prop
  | [] => True
  | (process, percentage) :: rest =>
    if process ∈ throttled then Fits wanted throttled sum rest
    else if sum + percentage ≤ 100 then
      Fits wanted (process :: throttled) (sum + percentage) rest
    else (process ∈ wanted → process ∈ rest.map Prod.fst) ∧ Fits wanted throttled sum rest

theorem fits_iff {wanted throttled : List H} (requests : List (H × ℚ))
    (hthrottled : ∀ p, p ∈ throttled ↔ t.throttlingValues.find? p ≠ none) :
    (∀ p ∈ wanted, p ∈ requests.map Prod.fst →
      (requests.foldl addProcess t).throttlingValues.find? p ≠ none) ↔
    Fits wanted throttled t.sumPercentages requests := by
  induction requests generalizing t throttled with
  | nil => simp [Fits]
  | cons r rest ih =>
    obtain ⟨process, percentage⟩ := r
    have hsplit : (∀ p ∈ wanted, p ∈ ((process, percentage) :: rest).map Prod.fst →
        (rest.foldl addProcess (t.addProcess (process, percentage))).throttlingValues.find? p ≠ none) ↔
      (process ∈ wanted → (rest.foldl addProcess
        (t.addProcess (process, percentage))).throttlingValues.find? process ≠ none) ∧
      ∀ p ∈ wanted, p ∈ rest.map Prod.fst → (rest.foldl addProcess
        (t.addProcess (process, percentage))).throttlingValues.find? p ≠ none := by
      simp only [List.map_cons, List.mem_cons]
      grind
    have hfind (p : H) := find?_addProcess (t := t) (p := p) (process, percentage)
    have hnext := sumPercentages_addProcess (t := t) (process, percentage)
    rw [List.foldl_cons, hsplit, Fits]
    split_ifs with hmem hsum
    · have hthrottles := (hthrottled process).mp hmem
      rw [if_neg fun h => hthrottles h.1] at hnext
      rw [and_iff_right fun _ => find?_addAll_of_throttled rest (by simp [hfind, hthrottles]), ← hnext]
      refine ih fun p => ?_
      rw [hfind, hthrottled]
      split_ifs with hp
      · simp [hp.1, hthrottles]
      · rfl
    · have hnone : t.throttlingValues.find? process = none :=
        not_not.mp (mt (hthrottled process).mpr hmem)
      rw [if_pos ⟨hnone, hsum⟩] at hnext
      rw [and_iff_right fun _ => find?_addAll_of_throttled rest (by simp [hfind, hsum]), ← hnext]
      refine ih fun p => ?_
      rw [hfind, List.mem_cons, hthrottled]
      by_cases hp : p = process <;> simp [hp, hsum]
    · have hnone : t.throttlingValues.find? process = none :=
        not_not.mp (mt (hthrottled process).mpr hmem)
      have hsame : ∀ p, (t.addProcess (process, percentage)).throttlingValues.find? p =
          t.throttlingValues.find? p := fun p => by
        rw [hfind, if_neg fun h => h.2.elim (fun h => h hnone) hsum]
      rw [if_neg fun h => hsum h.2] at hnext
      have hrest := ih (t := t.addProcess (process, percentage)) fun p => by rw [hsame, hthrottled p]
      rw [← hnext, ← hrest]
      refine and_congr_left fun hserved => forall_congr' fun hwanted => ?_
      constructor
      · intro hgranted
        by_contra hlast
        exact hgranted ((find?_addAll_of_not_requested hlast).trans ((hsame process).trans hnone))
      · exact hserved process hwanted

/-- The removals of a drain, whatever their order. -/
theorem find?_drain : t.drain.throttlingValues.find? p =
    if p ∈ t.processesToRemove then none else t.addProcesses.throttlingValues.find? p := by
  have hfold : ∀ (requests : List H) (u : ThrottlerThread H),
      (requests.foldl removeProcess u).throttlingValues.find? p =
        if p ∈ requests then none else u.throttlingValues.find? p := by
    intro requests
    induction requests with
    | nil => exact fun u => by simp
    | cons q rest ih =>
      intro u
      rw [List.foldl_cons, ih, find?_removeProcess]
      by_cases hrest : p ∈ rest <;> by_cases hq : p = q <;> simp [hrest, hq]
  rw [← addProcesses_processesToRemove]
  exact hfold _ _

/-- Requests for one handler that `throttle` has accepted are all granted. -/
theorem find?_addAll_of_accepted {requests : List (H × ℚ)} (h : ∀ r ∈ requests, r.1 = p ∧
      (t.throttlingValues.find? p ≠ none ∨ t.sumPercentages + r.2 ≤ 100)) :
    (requests.foldl addProcess t).throttlingValues.find? p =
      Request.inOrder p (t.throttlingValues.find? p) (Request.throttles requests) := by
  cases requests with
  | nil => rfl
  | cons r rest =>
    obtain ⟨hp, haccepted⟩ := h r List.mem_cons_self
    have hfirst : (t.addProcess r).throttlingValues.find? p = some r.2 := by
      rw [find?_addProcess, if_pos ⟨hp.symm, hp.symm ▸ haccepted⟩]
    have hthrottled := find?_addAll_of_throttled rest (hfirst ▸ Option.some_ne_none r.2)
    have hlast := (find?_addAll rest (.inr hfirst)).resolve_left hthrottled
    simpa [Request.throttles, Request.inOrder, Request.applied, hp] using hlast

/-- When a drain honours the last of the requests to throttle that wait for it. -/
theorem drain_honours_iff {pending grants : List (H × ℚ)}
    (hadd : t.processesToAdd = pending ++ grants) :
    (∀ p x, Request.inOrder p none (Request.throttles grants) = some x →
      t.drain.throttlingValues.find? p = some x) ↔
    (∀ p ∈ grants.map Prod.fst, p ∉ t.processesToRemove) ∧
      Fits (grants.map Prod.fst) t.throttlingValues.keys t.sumPercentages (pending ++ grants) := by
  have hkeys (p : H) : p ∈ t.throttlingValues.keys ↔ t.throttlingValues.find? p ≠ none :=
    (not_iff_comm.mp OrdMap.find?_none_iff.symm).symm
  rw [← fits_iff (pending ++ grants) hkeys]
  have hdrain (p : H) := find?_drain (t := t) (p := p)
  simp only [addProcesses, hadd] at hdrain
  constructor
  · intro hall
    have hkept : ∀ p ∈ grants.map Prod.fst, p ∉ t.processesToRemove ∧
        ((pending ++ grants).foldl addProcess t).throttlingValues.find? p ≠ none := by
      intro p hp
      obtain ⟨x, hx⟩ := Option.ne_none_iff_exists'.mp
        fun h => (Request.inOrder_throttles_none_iff (o := none).mp h).2 hp
      have hfind := hall p x hx
      rw [hdrain] at hfind
      split_ifs at hfind with hremove
      exact ⟨hremove, by rw [hfind]; exact Option.some_ne_none x⟩
    exact ⟨fun p hp => (hkept p hp).1, fun p hp _ => (hkept p hp).2⟩
  · rintro ⟨hkeep, hgranted⟩ p x hx
    have hp : p ∈ grants.map Prod.fst := by
      by_contra hp
      rw [Request.inOrder_throttles_none_iff.mpr ⟨rfl, hp⟩] at hx
      cases hx
    have hne := hgranted p hp (by rw [List.map_append]; exact List.mem_append_right _ hp)
    rw [hdrain, if_neg (hkeep p hp), (find?_addAll (pending ++ grants) (.inr rfl)).resolve_left hne,
      Request.throttles_append, Request.inOrder_append]
    exact Request.inOrder_of_some hx _

end ThrottlerThread

namespace System

open Request

/-- The calls to throttle that are accepted before a drain are honoured by it exactly when each of
their handlers gets a request that fits, and none of them is to be removed. -/
theorem honoured_iff (env : Processes H) (s : System H) (calls : List (H × ℚ)) :
    (∀ p x, inOrder p none (s.requests env (throttles calls)).1 = some x →
      (s.requests env (throttles calls)).2.thread.drain.throttlingValues.find? p = some x) ↔
    (∀ p ∈ (s.requests env (throttles calls)).1.map process, p ∉ s.thread.processesToRemove) ∧
      ThrottlerThread.Fits ((s.requests env (throttles calls)).1.map process)
        s.thread.throttlingValues.keys s.thread.sumPercentages
        (s.thread.processesToAdd ++ (s.requests env (throttles calls)).1.filterMap toAdd) := by
  obtain ⟨hstate, -⟩ := requests_queued env (throttles calls) s
  have hsublist := requests_sublist env (throttles calls) s
  obtain ⟨grants, hgrants⟩ : ∃ grants, (s.requests env (throttles calls)).1 = throttles grants := by
    refine ⟨_, eq_throttles fun p hp => ?_⟩
    obtain ⟨c, -, hc⟩ := List.mem_map.mp (hsublist.subset hp)
    cases hc
  have hremove : (s.queued (throttles grants)).thread.processesToRemove =
      s.thread.processesToRemove := by simp [queued]
  rw [hstate, hgrants, throttles_toAdd, throttles_process, ← hremove]
  exact ThrottlerThread.drain_honours_iff (by simp [queued])

/-- Two handlers ask for 60% each: both calls are accepted, and only the first is honoured. -/
theorem second_throttle_dropped :
    (initial fun _ => true : System ℕ).thread.sumPercentages =
        (initial fun _ => true : System ℕ).thread.throttlingValues.total ∧
      (requests sevenOn (initial fun _ => true) (throttles [(0, 60), (1, 60)])).1 =
        throttles [(0, 60), (1, 60)] ∧
      ¬∀ p x, inOrder p none (throttles [(0, 60), (1, 60)]) = some x →
        (requests sevenOn (initial fun _ => true)
          (throttles [(0, 60), (1, 60)])).2.thread.drain.throttlingValues.find? p = some x := by
  refine ⟨by decide +kernel, by decide +kernel, fun h => ?_⟩
  have hlost : (requests sevenOn (initial fun _ => true)
      (throttles [(0, 60), (1, 60)])).2.thread.drain.throttlingValues.find? 1 = none := by
    decide +kernel
  cases hlost.symm.trans (h 1 60 (by decide +kernel))

/-- The calls of a client on a handler are applied in their order exactly when no call to throttle
it comes after one to remove its throttling. -/
theorem applied_inOrder_iff (env : Processes H) (s : System H) (p : H) (rs : List (Request H))
    (hrs : ∀ r ∈ rs, r.process = p) (hadd : s.thread.processesToAdd = [])
    (hremove : s.thread.processesToRemove = []) :
    (s.requests env rs).2.thread.drain.throttlingValues.find? p =
        inOrder p (s.thread.throttlingValues.find? p) (s.requests env rs).1 ↔
      (.removeThrottling p ∈ (s.requests env rs).1 →
        (s.requests env rs).1.getLast? = some (.removeThrottling p)) := by
  obtain ⟨hstate, haccepts⟩ := requests_queued env rs s
  have hprocess : ∀ r ∈ (s.requests env rs).1, r.process = p := fun r hr =>
    hrs r ((requests_sublist env rs s).subset hr)
  rw [hstate]
  generalize (s.requests env rs).1 = accepted at haccepts hprocess ⊢
  rw [ThrottlerThread.find?_drain]
  have hqueue : (s.queued accepted).thread.processesToRemove = accepted.filterMap toRemove := by
    simp [queued, hremove]
  simp only [hqueue, mem_toRemove]
  by_cases hremoval : .removeThrottling p ∈ accepted
  · -- all the requests to add come before the removal
    rw [if_pos hremoval, forall_prop_of_true hremoval]
    obtain rfl | ⟨first, r, rfl⟩ := List.eq_nil_or_concat accepted
    · cases hremoval
    · have hr : r.process = p := hprocess r (by simp)
      rw [List.concat_eq_append, inOrder_append, List.getLast?_concat]
      cases r with
      | throttle q x => simp_all [inOrder, applied, process]
      | removeThrottling q => simp_all [inOrder, applied, process]
  · rw [if_neg hremoval]
    refine iff_of_true ?_ fun h => absurd h hremoval
    have hthrottles := eq_throttles fun q hq => hremoval (hprocess _ hq ▸ hq)
    have hqueued : (s.queued accepted).thread.processesToAdd = accepted.filterMap toAdd := by
      simp [queued, hadd]
    rw [ThrottlerThread.addProcesses, hqueued]
    refine (ThrottlerThread.find?_addAll_of_accepted fun r hr => ?_).trans (by rw [← hthrottles]; rfl)
    have hmem : .throttle r.1 r.2 ∈ accepted := by
      rw [hthrottles]
      exact List.mem_map_of_mem hr
    obtain rfl : r.1 = p := hprocess _ hmem
    exact ⟨rfl, (haccepts _ hmem).2.2.2⟩

theorem applied_inOrder_iff_once : (requests sevenOn (initial fun _ => true)
      (throttles [(0, 30), (0, 50)])).2.thread.drain.throttlingValues.find? 0 =
    inOrder 0 none (requests sevenOn (initial fun _ => true) (throttles [(0, 30), (0, 50)])).1 :=
  (applied_inOrder_iff sevenOn (initial fun _ => true) 0 (throttles [(0, 30), (0, 50)]) (by decide)
    rfl rfl).mpr fun h => absurd h (by decide +kernel)

/-- A call to throttle after one to remove the throttling: the drain handles the removal last. -/
theorem throttle_after_remove_lost :
    (requests sevenOn (initial fun _ => true) [.removeThrottling 0, .throttle 0 50]).1 =
        [.removeThrottling 0, .throttle 0 50] ∧
      (requests sevenOn (initial fun _ => true)
        [.removeThrottling 0, .throttle 0 50]).2.thread.drain.throttlingValues.find? 0 ≠
          inOrder 0 none [.removeThrottling 0, .throttle 0 50] := by
  decide +kernel

end System

end Mammut.Task
