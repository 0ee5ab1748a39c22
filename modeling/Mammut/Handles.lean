import Mammut.Cxx
import Mammut.Kit.Ownership
import Mammut.Kit.Runs

/-! The class `Mammut`, from `mammut.cpp`: an object of it constructs the instances of the modules
that its client asks for, and releases them with the object.  `A` are the addresses of a heap, `C`
the communicators, and `O` the objects of the clients. -/

set_option linter.dupNamespace false

namespace Mammut.Handles

open Kit Kit.Lockstep Kit.Programs Kit.Runs

inductive ModuleType
  | CpuFreq
  | Energy
  | TasksManager
  | Topology
  deriving DecidableEq, Repr

open ModuleType

/-- An instance of a module, for the machine behind a communicator or for this one.  There is no
remote instance of `TasksManager`. -/
@[ext] structure Instance (C : Type) where
  moduleType : ModuleType
  communicator : Option C
  supported : moduleType = TasksManager → communicator = none

/-- What is alive on the heap. -/
abbrev Heap (A C : Type) := A → Option (Instance C)

/-- The fields of the class. -/
structure Mammut (A C : Type) where
  cpufreq : Option A
  energy : Option A
  topology : Option A
  task : Option A
  communicator : Option C

variable {A C O : Type}

namespace Mammut

/-- `Mammut(communicator)`, and the copy constructor, which takes nothing but the communicator. -/
def new (communicator : Option C) : Mammut A C := ⟨none, none, none, none, communicator⟩

def pointer (m : Mammut A C) : ModuleType → Option A
  | CpuFreq => m.cpufreq
  | Energy => m.energy
  | TasksManager => m.task
  | Topology => m.topology

def setPointer (m : Mammut A C) (type : ModuleType) (p : Option A) : Mammut A C :=
  match type with
  | CpuFreq => { m with cpufreq := p }
  | Energy => { m with energy := p }
  | TasksManager => { m with task := p }
  | Topology => { m with topology := p }

@[simp] theorem new_pointer (communicator : Option C) (type : ModuleType) :
    (new communicator : Mammut A C).pointer type = none := by
  cases type <;> rfl

@[simp] theorem setPointer_communicator (m : Mammut A C) (type : ModuleType) (p : Option A) :
    (m.setPointer type p).communicator = m.communicator := by
  cases type <;> rfl

theorem setPointer_pointer (m : Mammut A C) (type : ModuleType) (p : Option A) :
    (m.setPointer type p).pointer = Function.update m.pointer type p := by
  funext t
  cases type <;> cases t <;> rfl

end Mammut

/-- The objects of the clients, and the heap. -/
structure World (O A C : Type) where
  objects : O → Option (Mammut A C)
  heap : Heap A C

namespace World

variable [DecidableEq O]

def put (w : World O A C) (o : O) (s : Mammut A C × Heap A C) : World O A C :=
  ⟨Function.update w.objects o (some s.1), s.2⟩

/-- The pointer of an object to its instance of a module. -/
def pointer (w : World O A C) (place : O × ModuleType) : Option A :=
  (w.objects place.1).bind (·.pointer place.2)

/-- The instance that an object asks for. -/
def Fits (w : World O A C) (place : O × ModuleType) (i : Instance C) : Prop :=
  i.moduleType = place.2 ∧ (w.objects place.1).map (·.communicator) = some i.communicator

/-- The objects own what is alive. -/
def Owned (w : World O A C) : Prop := Owns w.Fits w.pointer w.heap

variable {w w' : World O A C} {o : O} {m : Mammut A C} {heap : Heap A C} {type : ModuleType}

@[simp] theorem put_pointer_self (s : Mammut A C × Heap A C) (type : ModuleType) :
    (w.put o s).pointer (o, type) = s.1.pointer type := by
  simp [put, pointer]

theorem put_pointer_of_ne {o' : O} (h : o' ≠ o) (s : Mammut A C × Heap A C) (type : ModuleType) :
    (w.put o s).pointer (o', type) = w.pointer (o', type) := by
  simp [put, pointer, h]

theorem put_self (h : w.objects o = some m) : w.put o (m, w.heap) = w := by
  unfold put
  congr 1
  rw [← h, Function.update_eq_self]

/-- A pointer of the object changes. -/
theorem put_setPointer_pointer (p : Option A) (heap heap' : Heap A C) :
    (w.put o (m.setPointer type p, heap')).pointer =
      Function.update (w.put o (m, heap)).pointer (o, type) p := by
  funext ⟨o', t⟩
  by_cases ho : o' = o
  · subst ho
    rw [put_pointer_self, Mammut.setPointer_pointer]
    by_cases ht : t = type
    · subst ht
      rw [Function.update_self, Function.update_self]
    · rw [Function.update_of_ne ht, Function.update_of_ne (by simpa using ht), put_pointer_self]
  · rw [put_pointer_of_ne ho, Function.update_of_ne (by simp [ho]), put_pointer_of_ne ho]

theorem put_setPointer_fits (p : Option A) (heap heap' : Heap A C) :
    (w.put o (m.setPointer type p, heap')).Fits = (w.put o (m, heap)).Fits := by
  funext ⟨o', t⟩ i
  by_cases ho : o' = o
  · subst ho
    simp [Fits, put]
  · simp [Fits, put, ho]

omit [DecidableEq O] in
/-- Objects that own the same still own what is alive. -/
theorem Owned.congr (h : w.Owned) (hpointer : ∀ place, w'.pointer place = w.pointer place)
    (hcommunicator : ∀ o type a, w.pointer (o, type) = some a →
      (w'.objects o).map (·.communicator) = (w.objects o).map (·.communicator))
    (hheap : w'.heap = w.heap) : w'.Owned := by
  unfold Owned
  rw [hheap]
  exact Owns.congr h hpointer fun place i a ha hfits =>
    ⟨hfits.1, (hcommunicator place.1 place.2 a ha).trans hfits.2⟩

/-- An object without instances begins or ends. -/
theorem Owned.setObject (h : w.Owned) {p : Option (Mammut A C)}
    (hbefore : ∀ type, w.pointer (o, type) = none)
    (hafter : ∀ m type, p = some m → m.pointer type = none) :
    Owned { w with objects := Function.update w.objects o p } := by
  refine h.congr (fun ⟨o', type⟩ => ?_) (fun o' type a ha => ?_) rfl
  · by_cases ho : o' = o
    · subst ho
      rw [hbefore type, pointer]
      show (Function.update w.objects o' p o').bind _ = none
      rw [Function.update_self]
      cases p with
      | none => rfl
      | some m => exact hafter m type rfl
    · show (Function.update w.objects o p o').bind _ = _
      rw [Function.update_of_ne ho]
      rfl
  · have ho : o' ≠ o := by
      rintro rfl
      rw [hbefore] at ha
      cases ha
    show (Function.update w.objects o p o').map _ = _
    rw [Function.update_of_ne ho]

end World

variable [DecidableEq A]

/-- `new` of a class whose constructor builds the instance at an address, or throws. -/
def new (constructed : Except Exn A) (i : Instance C) : Call (Heap A C) A := do
  match constructed with
  | .ok a =>
    modify fun heap => Function.update heap a (some i)
    return a
  | .error e => throw e

/-- `delete` of a pointer: undefined where nothing is alive.  The destructor of the instance sees
nothing of this heap. -/
def delete (a : A) : Call (Heap A C) Unit := do
  match (← get) a with
  | some _ => modify fun heap => Function.update heap a none
  | none => throw .undefined

/-- `local()` of a module. -/
def instanceLocal (constructed : Except Exn A) (type : ModuleType) : Call (Heap A C) A :=
  new constructed ⟨type, none, fun _ => rfl⟩

/-- `remote(communicator)` of a module. -/
def instanceRemote (constructed : Except Exn A) (type : ModuleType) (communicator : C) :
    Call (Heap A C) A :=
  match type with
  | TasksManager => throw (.runtimeError "Remote process manager not yet supported.")
  | CpuFreq => new constructed ⟨CpuFreq, some communicator, nofun⟩
  | Energy => new constructed ⟨Energy, some communicator, nofun⟩
  | Topology => new constructed ⟨Topology, some communicator, nofun⟩

/-- `getInstance(communicator)` of a module. -/
def instanceOf (constructed : Except Exn A) (type : ModuleType) :
    Option C → Call (Heap A C) A
  | some communicator => instanceRemote constructed type communicator
  | none => instanceLocal constructed type

namespace Mammut

/-- A call on an object and the heap. -/
abbrev Method (A C α : Type) := Call (Mammut A C × Heap A C) α

/-- A statement of `releaseModules` for one module. -/
def releaseModule (type : ModuleType) : Method A C Unit := do
  match (← get).1.pointer type with
  | some a => do
    onSnd (delete a)
    onFst (modify fun m => m.setPointer type none)
  | none => return

def releaseModules : Method A C Unit := do
  releaseModule CpuFreq
  releaseModule Energy
  releaseModule TasksManager
  releaseModule Topology

/-- The four functions that return an instance of a module. -/
def getInstance (constructed : Except Exn A) (type : ModuleType) : Method A C A := do
  match (← get).1.pointer type with
  | some a => return a
  | none => do
    let a ← onSnd (instanceOf constructed type (← get).1.communicator)
    onFst (modify fun m => m.setPointer type (some a))
    return a

def getInstanceCpuFreq (constructed : Except Exn A) : Method A C A :=
  getInstance constructed CpuFreq

def getInstanceEnergy (constructed : Except Exn A) : Method A C A := getInstance constructed Energy

def getInstanceTask (constructed : Except Exn A) : Method A C A :=
  getInstance constructed TasksManager

def getInstanceTopology (constructed : Except Exn A) : Method A C A :=
  getInstance constructed Topology

/-- `operator=` of an object that is not the other one. -/
def assign (other : Mammut A C) : Method A C Unit := do
  releaseModules
  onFst (modify fun m => { m with communicator := other.communicator })

end Mammut

/-- What a client does with an object.  `constructed` is what the constructor of a module does if
the call runs it. -/
inductive Action (O A C : Type)
  | construct (o : O) (communicator : Option C)
  | copy (o other : O)
  | assign (o other : O)
  | getInstance (o : O) (type : ModuleType) (constructed : Except Exn A)
  | destroy (o : O)

/-- The actions that release the instances of the object `o`. -/
def Action.Ends (o : O) : Action O A C → Prop
  | .assign o' other => o' = o ∧ other ≠ o
  | .destroy o' => o' = o
  | _ => False

namespace World

variable [DecidableEq O]

/-- A method of the object `o`. -/
def onObject {α : Type} (o : O) (call : Mammut.Method A C α) : Call (World O A C) α := fun w =>
  match w.objects o with
  | some m =>
    match call (m, w.heap) with
    | .ok a s => .ok a (w.put o s)
    | .error e s => .error e (w.put o s)
  | none => .error .undefined w

/-- The object `o` begins or ends. -/
def setObject (o : O) (m : Option (Mammut A C)) : Call (World O A C) Unit :=
  modify fun w => { w with objects := Function.update w.objects o m }

/-- The object `o`, which is to be copied. -/
def object (o : O) : Call (World O A C) (Mammut A C) := do
  match (← get).objects o with
  | some m => return m
  | none => throw .undefined

/-- An action, and the instance that it returns. -/
def exec : Action O A C → Call (World O A C) (Option A)
  | .construct o communicator => do
    setObject o (some (Mammut.new communicator))
    return none
  | .copy o other => do
    setObject o (some (Mammut.new (← object other).communicator))
    return none
  | .assign o other => do
    if o ≠ other then
      onObject o (Mammut.assign (← object other))
    return none
  | .getInstance o type constructed => do
    return some (← onObject o (Mammut.getInstance constructed type))
  | .destroy o => do
    onObject o Mammut.releaseModules
    setObject o none
    return none

/-- What a client does to objects that exist, or begin; a constructor builds its instance where
nothing is alive, and does nothing that is undefined. -/
def Allowed (w : World O A C) : Action O A C → Prop
  | .construct o _ => w.objects o = none
  | .copy o other => w.objects o = none ∧ w.objects other ≠ none
  | .assign o other => w.objects o ≠ none ∧ w.objects other ≠ none
  | .getInstance o _ constructed => w.objects o ≠ none ∧
      (∀ a, constructed = .ok a → w.heap a = none) ∧ constructed ≠ .error .undefined
  | .destroy o => w.objects o ≠ none

/-- An action that the client is allowed, however it ends. -/
def Step (w : World O A C) (action : Action O A C) (w' : World O A C) : Prop :=
  w.Allowed action ∧ w' = after (exec action) w

end World

section Calls

variable {constructed : Except Exn A}

theorem new_cases (heap : Heap A C) (i : Instance C) (hdefined : constructed ≠ .error .undefined) :
    (∃ a, constructed = .ok a ∧
      (new constructed i).run heap = .ok a (Function.update heap a (some i))) ∨
    ∃ e, e ≠ .undefined ∧ (new constructed i).run heap = .error e heap := by
  cases constructed with
  | ok a => exact .inl ⟨a, rfl, rfl⟩
  | error e => exact .inr ⟨e, fun he => hdefined (congrArg _ he), rfl⟩

/-- An instance of the module for the machine of the communicator, or an exception. -/
theorem instanceOf_cases (heap : Heap A C) (type : ModuleType) (communicator : Option C)
    (hdefined : constructed ≠ .error .undefined) :
    (∃ a i, constructed = .ok a ∧ i.moduleType = type ∧ i.communicator = communicator ∧
      (instanceOf constructed type communicator).run heap =
        .ok a (Function.update heap a (some i))) ∨
    ∃ e, e ≠ .undefined ∧
      (instanceOf constructed type communicator).run heap = .error e heap := by
  have hnew (i : Instance C) (htype : i.moduleType = type)
      (hcommunicator : i.communicator = communicator)
      (hrun : instanceOf constructed type communicator = new constructed i) :
      (∃ a i, constructed = .ok a ∧ i.moduleType = type ∧ i.communicator = communicator ∧
        (instanceOf constructed type communicator).run heap =
          .ok a (Function.update heap a (some i))) ∨
      ∃ e, e ≠ .undefined ∧
        (instanceOf constructed type communicator).run heap = .error e heap := by
    rw [hrun]
    rcases new_cases heap i hdefined with ⟨a, ha, h⟩ | ⟨e, he, h⟩
    · exact .inl ⟨a, i, ha, htype, hcommunicator, h⟩
    · exact .inr ⟨e, he, h⟩
  cases communicator with
  | none => exact hnew _ rfl rfl rfl
  | some communicator =>
    cases type with
    | TasksManager =>
      exact .inr ⟨.runtimeError "Remote process manager not yet supported.", nofun, rfl⟩
    | CpuFreq => exact hnew _ rfl rfl rfl
    | Energy => exact hnew _ rfl rfl rfl
    | Topology => exact hnew _ rfl rfl rfl

/-- A method returns the instance that the object has, or constructs one, or throws. -/
theorem getInstance_cases (m : Mammut A C) (heap : Heap A C) (type : ModuleType)
    (hdefined : constructed ≠ .error .undefined) :
    (∃ a, m.pointer type = some a ∧
      (Mammut.getInstance constructed type).run (m, heap) = .ok a (m, heap)) ∨
    (∃ a i, m.pointer type = none ∧ constructed = .ok a ∧ i.moduleType = type ∧
      i.communicator = m.communicator ∧ (Mammut.getInstance constructed type).run (m, heap) =
        .ok a (m.setPointer type (some a), Function.update heap a (some i))) ∨
    ∃ e, m.pointer type = none ∧ e ≠ .undefined ∧
      (Mammut.getInstance constructed type).run (m, heap) = .error e (m, heap) := by
  have hget : (get : Mammut.Method A C _).run (m, heap) = .ok (m, heap) (m, heap) := rfl
  cases hpointer : m.pointer type with
  | some a =>
    refine .inl ⟨a, rfl, ?_⟩
    simp only [Mammut.getInstance, EStateM.run_bind, hget, hpointer]
    rfl
  | none =>
    rcases instanceOf_cases heap type m.communicator hdefined with
      ⟨a, i, ha, htype, hcommunicator, h⟩ | ⟨e, he, h⟩
    · refine .inr (.inl ⟨a, i, rfl, ha, htype, hcommunicator, ?_⟩)
      simp only [Mammut.getInstance, EStateM.run_bind, hget, hpointer, run_onSnd, h]
      rfl
    · refine .inr (.inr ⟨e, rfl, he, ?_⟩)
      simp only [Mammut.getInstance, EStateM.run_bind, hget, hpointer, run_onSnd, h]

end Calls

namespace World

variable [DecidableEq O] {w w' : World O A C} {o : O} {m : Mammut A C} {heap : Heap A C}
  {communicator : Option C}

/-- The object `o` has released the instances of the modules in `gone`. -/
structure Released (w : World O A C) (o : O) (communicator : Option C) (gone : List ModuleType)
    (s : Mammut A C × Heap A C) : Prop where
  owned : (w.put o s).Owned
  gone : ∀ t ∈ gone, s.1.pointer t = none
  communicator : s.1.communicator = communicator

theorem releaseModule_triple (type : ModuleType) (gone : List ModuleType) :
    Triple (Released w o communicator gone) (Mammut.releaseModule type)
      (fun _ => Released w o communicator (type :: gone)) Never := by
  rintro ⟨m, heap⟩ h
  have hget : (get : Mammut.Method A C _).run (m, heap) = .ok (m, heap) (m, heap) := rfl
  cases hpointer : m.pointer type with
  | none =>
    simp only [Mammut.releaseModule, EStateM.run_bind, hget, hpointer]
    exact ⟨h.owned, List.forall_mem_cons.mpr ⟨hpointer, h.gone⟩, h.communicator⟩
  | some a =>
    have howner : (w.put o (m, heap)).pointer (o, type) = some a := by
      rw [put_pointer_self, hpointer]
    obtain ⟨i, hi, -⟩ := h.owned.live howner
    have hdelete : (delete a).run heap = .ok () (Function.update heap a none) := by
      simp only [delete, EStateM.run_bind, EStateM.run_get]
      rw [show heap a = some i from hi]
      rfl
    simp only [Mammut.releaseModule, EStateM.run_bind, hget, hpointer, run_onSnd, hdelete]
    refine ⟨?_, ?_, ?_⟩
    · show Owns (w.put o (m.setPointer type none, _)).Fits
        (w.put o (m.setPointer type none, _)).pointer _
      rw [put_setPointer_fits none heap, put_setPointer_pointer none heap]
      exact h.owned.release howner
    · intro t ht
      show (m.setPointer type none).pointer t = none
      rw [Mammut.setPointer_pointer]
      by_cases htype : t = type
      · rw [htype, Function.update_self]
      · rw [Function.update_of_ne htype]
        exact h.gone t ((List.mem_cons.mp ht).resolve_left htype)
    · exact (Mammut.setPointer_communicator ..).trans h.communicator

/-- `releaseModules` deletes what the object owns, and leaves it without instances. -/
theorem releaseModules_triple :
    Triple (Released w o communicator []) (Mammut.releaseModules (A := A))
      (fun _ => Released w o communicator [Topology, TasksManager, Energy, CpuFreq]) Never :=
  triple_bind (releaseModule_triple _ _) fun _ =>
    triple_bind (releaseModule_triple _ _) fun _ =>
      triple_bind (releaseModule_triple _ _) fun _ => releaseModule_triple _ _

omit [DecidableEq A] in
theorem Released.pointer_eq {s : Mammut A C × Heap A C}
    (h : Released w o communicator [Topology, TasksManager, Energy, CpuFreq] s) :
    s.1.pointer = fun _ => none := by
  funext type
  exact h.gone type (by cases type <;> decide)

omit [DecidableEq A] in
theorem onObject_run {α : Type} {call : Mammut.Method A C α} (hm : w.objects o = some m) :
    (onObject o call).run w = match call.run (m, w.heap) with
      | .ok a s => .ok a (w.put o s)
      | .error e s => .error e (w.put o s) := by
  show onObject o call w = _
  unfold onObject
  rw [hm]
  rfl

/-- The object `o` releases its instances. -/
theorem releaseModules_onObject (h : w.Owned) (hm : w.objects o = some m) :
    ∃ s, (onObject o Mammut.releaseModules).run w = .ok () (w.put o s) ∧
      Mammut.releaseModules.run (m, w.heap) = .ok () s ∧ (w.put o s).Owned ∧
      s.1.pointer = fun _ => none := by
  have hstart : Released w o m.communicator [] (m, w.heap) :=
    ⟨by rwa [put_self hm], nofun, rfl⟩
  obtain ⟨⟨⟩, s, hrun, hs⟩ := releaseModules_triple.returns hstart
  exact ⟨s, by rw [onObject_run hm, hrun], hrun, hs.owned, hs.pointer_eq⟩

omit [DecidableEq A] [DecidableEq O] in
theorem object_run (hm : w.objects o = some m) : (object o).run w = .ok m w := by
  simp only [object, EStateM.run_bind, EStateM.run_get, hm]
  rfl

/-- No action frees twice, and each leaves the objects the owners of what is alive. -/
theorem exec_triple (action : Action O A C) :
    Triple (fun w => w.Owned ∧ w.Allowed action) (exec action) (fun _ => Owned)
      fun e w => e ≠ .undefined ∧ w.Owned := by
  rintro w ⟨h, hallowed⟩
  cases action with
  | construct o communicator =>
    exact h.setObject (fun type => by rw [pointer, show w.objects o = none from hallowed]; rfl)
      fun m type hm => Option.some.inj hm ▸ Mammut.new_pointer communicator type
  | copy o other =>
    obtain ⟨hnone, hother⟩ := hallowed
    obtain ⟨m, hm⟩ := Option.ne_none_iff_exists'.mp hother
    simp only [exec, EStateM.run_bind, object_run hm]
    exact h.setObject (fun type => by rw [pointer, hnone]; rfl)
      fun m' type hm' => Option.some.inj hm' ▸ Mammut.new_pointer m.communicator type
  | assign o other =>
    obtain ⟨m, hm⟩ := Option.ne_none_iff_exists'.mp hallowed.1
    obtain ⟨m', hm'⟩ := Option.ne_none_iff_exists'.mp hallowed.2
    by_cases ho : o = other
    · simp only [exec, ho, ne_eq, not_true_eq_false, if_false]
      exact h
    · obtain ⟨s, -, hrun, howned, hpointer⟩ := releaseModules_onObject h hm
      have hassign : (Mammut.assign m').run (m, w.heap) =
          .ok () ({ s.1 with communicator := m'.communicator }, s.2) := by
        simp only [Mammut.assign, EStateM.run_bind, hrun]
        rfl
      simp only [exec, ne_eq, ho, not_false_eq_true, if_true, EStateM.run_bind, object_run hm',
        onObject_run hm, hassign]
      have hnone (type : ModuleType) : (w.put o s).pointer (o, type) = none := by
        rw [put_pointer_self, hpointer]
      apply howned.congr
      · intro ⟨o', type⟩
        by_cases hsame : o' = o
        · rw [hsame, hnone, put_pointer_self]
          exact congrFun hpointer type
        · rw [put_pointer_of_ne hsame, put_pointer_of_ne hsame]
      · intro o' type a ha
        have hsame : o' ≠ o := by
          rintro rfl
          rw [hnone] at ha
          cases ha
        simp [put, hsame]
      · rfl
  | getInstance o type constructed =>
    obtain ⟨hobject, hfresh, hdefined⟩ := hallowed
    obtain ⟨m, hm⟩ := Option.ne_none_iff_exists'.mp hobject
    have hself := put_self hm
    rcases getInstance_cases m w.heap type hdefined with
      ⟨a, -, hrun⟩ | ⟨a, i, hpointer, ha, htype, hcommunicator, hrun⟩ | ⟨e, -, he, hrun⟩
    · simp only [exec, EStateM.run_bind, onObject_run hm, hrun]
      show (w.put o (m, w.heap)).Owned
      rwa [hself]
    · simp only [exec, EStateM.run_bind, onObject_run hm, hrun]
      show Owns (w.put o (m.setPointer type (some a), _)).Fits
        (w.put o (m.setPointer type (some a), _)).pointer _
      rw [put_setPointer_fits (some a) w.heap, put_setPointer_pointer (some a) w.heap, hself]
      refine Owns.adopt h ?_ (hfresh a ha) ⟨htype, ?_⟩
      · rw [pointer, hm]
        exact hpointer
      · rw [hm, hcommunicator]
        rfl
    · simp only [exec, EStateM.run_bind, onObject_run hm, hrun]
      exact ⟨he, by rwa [hself]⟩
  | destroy o =>
    obtain ⟨m, hm⟩ := Option.ne_none_iff_exists'.mp hallowed
    obtain ⟨s, hrun, -, howned, hpointer⟩ := releaseModules_onObject h hm
    simp only [exec, EStateM.run_bind, hrun]
    refine howned.setObject (fun type => ?_) nofun
    rw [put_pointer_self, hpointer]

theorem exec_owned (action : Action O A C) (h : w.Owned) (hstep : w.Step action w') : w'.Owned := by
  obtain ⟨hallowed, rfl⟩ := hstep
  have hexec := exec_triple action w ⟨h, hallowed⟩
  unfold after
  cases hrun : (exec action).run w with
  | ok a t =>
    rw [hrun] at hexec
    exact hexec
  | error e t =>
    rw [hrun] at hexec
    exact hexec.2

variable {type : ModuleType} {a : A}

omit [DecidableEq A] in
theorem setObject_keeps {o' : O} (ho : o' ≠ o) (p : Option (Mammut A C)) :
    Keeps (fun w : World O A C => w.pointer (o, type) = some a) (setObject o' p) := by
  refine triple_modify fun w hw => ?_
  show (Function.update w.objects o' p o).bind _ = _
  rw [Function.update_of_ne ho.symm]
  exact hw

omit [DecidableEq A] in
theorem onObject_keeps {α : Type} {o' : O} (ho : o' ≠ o) (call : Mammut.Method A C α) :
    Keeps (fun w : World O A C => w.pointer (o, type) = some a) (onObject o' call) := by
  intro w hw
  cases hm : w.objects o' with
  | none =>
    have hrun : (onObject o' call).run w = .error .undefined w := by
      show onObject o' call w = _
      unfold onObject
      rw [hm]
    rw [hrun]
    exact hw
  | some m =>
    rw [onObject_run hm]
    cases call.run (m, w.heap) with
    | ok b s => exact (put_pointer_of_ne ho.symm s type).trans hw
    | error e s => exact (put_pointer_of_ne ho.symm s type).trans hw

omit [DecidableEq A] [DecidableEq O] in
theorem object_keeps {I : World O A C → Prop} (o : O) : Keeps I (object o) := by
  refine keeps_bind keeps_get fun w => ?_
  cases w.objects o with
  | some m => exact keeps_pure
  | none => exact keeps_throw

/-- An object keeps the instance that it has until it is destroyed or assigned to. -/
theorem exec_keeps_pointer (action : Action O A C) (hends : ¬action.Ends o)
    (hallowed : w.Allowed action) (hpointer : w.pointer (o, type) = some a) :
    (after (exec action) w).pointer (o, type) = some a := by
  let I : World O A C → Prop := fun w => w.pointer (o, type) = some a
  have hbegins {o' : O} (hnone : w.objects o' = none) : o' ≠ o := by
    rintro rfl
    rw [pointer, hnone] at hpointer
    cases hpointer
  cases action with
  | construct o' communicator =>
    exact after_of_keeps (I := I)
      (keeps_bind (setObject_keeps (hbegins hallowed) _) fun _ => keeps_pure) hpointer
  | copy o' other =>
    exact after_of_keeps (I := I) (keeps_bind (object_keeps other) fun m =>
      keeps_bind (setObject_keeps (hbegins hallowed.1) _) fun _ => keeps_pure) hpointer
  | assign o' other =>
    by_cases ho : o' = other
    · simp only [exec, ho, ne_eq, not_true_eq_false, if_false]
      exact hpointer
    · have hne : o' ≠ o := fun heq => hends ⟨heq, fun hother => ho (heq.trans hother.symm)⟩
      simp only [exec, ne_eq, ho, not_false_eq_true, if_true]
      exact after_of_keeps (I := I) (keeps_bind (object_keeps other) fun m =>
        keeps_bind (onObject_keeps hne _) fun _ => keeps_pure) hpointer
  | destroy o' =>
    exact after_of_keeps (I := I) (keeps_bind (onObject_keeps hends _) fun _ =>
      keeps_bind (setObject_keeps hends _) fun _ => keeps_pure) hpointer
  | getInstance o' type' constructed =>
    by_cases ho : o' = o
    · subst ho
      obtain ⟨hobject, -, hdefined⟩ := hallowed
      obtain ⟨m, hm⟩ := Option.ne_none_iff_exists'.mp hobject
      have hm' : m.pointer type = some a := by
        rw [pointer, hm] at hpointer
        exact hpointer
      unfold after
      rcases getInstance_cases m w.heap type' hdefined with
        ⟨b, -, hrun⟩ | ⟨b, i, hnone, -, -, -, hrun⟩ | ⟨e, -, -, hrun⟩
      · simp only [exec, EStateM.run_bind, onObject_run hm, hrun]
        exact (put_pointer_self _ type).trans hm'
      · have htype : type ≠ type' := by
          rintro rfl
          rw [hnone] at hm'
          cases hm'
        simp only [exec, EStateM.run_bind, onObject_run hm, hrun]
        refine (put_pointer_self _ type).trans ?_
        rw [Mammut.setPointer_pointer, Function.update_of_ne htype]
        exact hm'
      · simp only [exec, EStateM.run_bind, onObject_run hm, hrun]
        exact (put_pointer_self _ type).trans hm'
    · exact after_of_keeps (I := I) (keeps_bind (onObject_keeps ho _) fun _ => keeps_pure) hpointer

/-- What `getInstance` returns is the instance that the object then has. -/
theorem getInstance_returns {constructed : Except Exn A}
    (hallowed : w.Allowed (.getInstance o type constructed))
    (hrun : (exec (.getInstance o type constructed)).run w = .ok (some a) w') :
    w'.pointer (o, type) = some a := by
  obtain ⟨hobject, -, hdefined⟩ := hallowed
  obtain ⟨m, hm⟩ := Option.ne_none_iff_exists'.mp hobject
  rcases getInstance_cases m w.heap type hdefined with
    ⟨b, hpointer, hcall⟩ | ⟨b, i, -, -, -, -, hcall⟩ | ⟨e, -, -, hcall⟩
  · simp only [exec, EStateM.run_bind, onObject_run hm, hcall] at hrun
    cases hrun
    exact (put_pointer_self _ type).trans hpointer
  · simp only [exec, EStateM.run_bind, onObject_run hm, hcall] at hrun
    cases hrun
    refine (put_pointer_self _ type).trans ?_
    rw [Mammut.setPointer_pointer, Function.update_self]
  · simp only [exec, EStateM.run_bind, onObject_run hm, hcall] at hrun
    cases hrun

/-- An object that has an instance returns it. -/
theorem getInstance_again (hpointer : w.pointer (o, type) = some a) (constructed : Except Exn A) :
    (exec (.getInstance o type constructed)).run w = .ok (some a) w := by
  obtain ⟨m, hm, hm'⟩ := Option.bind_eq_some_iff.mp hpointer
  have hcall : (Mammut.getInstance constructed type).run (m, w.heap) = .ok a (m, w.heap) := by
    have hget : (get : Mammut.Method A C _).run (m, w.heap) = .ok (m, w.heap) (m, w.heap) := rfl
    simp only [Mammut.getInstance, EStateM.run_bind, hget, hm']
    rfl
  simp only [exec, EStateM.run_bind, onObject_run hm, hcall]
  rw [put_self hm]
  rfl

theorem run_keeps_pointer {later : List (Action O A C)} (run : Run Step w later w')
    (hends : ∀ action ∈ later, ¬action.Ends o) (hpointer : w.pointer (o, type) = some a) :
    w'.pointer (o, type) = some a := by
  induction run with
  | nil => exact hpointer
  | snoc _ hstep ih =>
    obtain ⟨hallowed, rfl⟩ := hstep
    exact exec_keeps_pointer _ (hends _ (by simp)) hallowed
      (ih fun action hmem => hends action (List.mem_append_left _ hmem))

/-- No object, and nothing alive. -/
def empty : World O A C := ⟨fun _ => none, fun _ => none⟩

/-- In every run, whatever the constructors throw and wherever they build: nothing is freed that is
not alive; a pointer of an object leads to an instance of its module for the object's machine; an
instance has one owner, and dies with it; and until an object ends, it returns the same instance. -/
theorem owns_instances {actions : List (Action O A C)} (run : Run Step empty actions w) :
    (∀ action, w.Allowed action → outcome ((exec action).run w) ≠ .error .undefined) ∧
    (∀ o m type a, w.objects o = some m → m.pointer type = some a →
      ∃ i, w.heap a = some i ∧ i.moduleType = type ∧ i.communicator = m.communicator) ∧
    (∀ a i, w.heap a = some i → ∃! place, w.pointer place = some a) ∧
    ∀ o type constructed a w₁ later w₂, w.Allowed (.getInstance o type constructed) →
      (exec (.getInstance o type constructed)).run w = .ok (some a) w₁ → Run Step w₁ later w₂ →
      (∀ action ∈ later, ¬action.Ends o) → (∃ i, w₂.heap a = some i ∧ i.moduleType = type) ∧
        ∀ again, (exec (.getInstance o type again)).run w₂ = .ok (some a) w₂ := by
  have howned : w.Owned :=
    run.invariant Owned Owns.empty fun _ _ _ h hstep => exec_owned _ h hstep
  refine ⟨?_, ?_, ?_, ?_⟩
  · intro action hallowed
    have hexec := exec_triple action w ⟨howned, hallowed⟩
    cases hrun : (exec action).run w with
    | ok b t => exact nofun
    | error e t =>
      rw [hrun] at hexec
      exact fun he => hexec.1 (Except.error.inj he)
  · intro o m type a hm hpointer
    obtain ⟨i, hi, htype, hcommunicator⟩ := howned.live
      (show w.pointer (o, type) = some a by rw [pointer, hm]; exact hpointer)
    rw [hm] at hcommunicator
    exact ⟨i, hi, htype, (Option.some.inj hcommunicator).symm⟩
  · intro a i hi
    obtain ⟨place, hplace⟩ := howned.owned hi
    exact ⟨place, hplace, fun other hother => howned.unique hother hplace⟩
  · intro o type constructed a w₁ later w₂ hallowed hrun hlater hends
    have hstep : w.Step (.getInstance o type constructed) w₁ := by
      refine ⟨hallowed, ?_⟩
      rw [after, hrun]
      rfl
    have hpointer := run_keeps_pointer hlater hends (getInstance_returns hallowed hrun)
    have howned₂ : w₂.Owned := hlater.invariant Owned (exec_owned _ howned hstep)
      fun _ _ _ h hstep => exec_owned _ h hstep
    obtain ⟨i, hi, htype, -⟩ := howned₂.live hpointer
    exact ⟨⟨i, hi, htype⟩, getInstance_again hpointer⟩

/-- An object and a copy of it ask for a topology, and the first one is destroyed. -/
def copied : List (Action Bool ℕ Unit) :=
  [.construct true none, .getInstance true Topology (.ok 7), .copy false true,
    .getInstance false Topology (.ok 8), .destroy true]

theorem owns_instances_copied : ∃ w : World Bool ℕ Unit, Run Step empty copied w ∧
    w.heap 7 = none ∧ ∃! place, w.pointer place = some 8 := by
  have step {w : World Bool ℕ Unit} (action : Action Bool ℕ Unit) (h : w.Allowed action) :
      w.Step action (after (exec action) w) := ⟨h, rfl⟩
  have start : Run Step (empty : World Bool ℕ Unit) [] empty := .nil
  have run : Run Step empty copied _ := ((((start.snoc
    (step (.construct true none) rfl)).snoc
    (step (.getInstance true Topology (.ok 7)) ⟨nofun, fun _ _ => rfl, nofun⟩)).snoc
    (step (.copy false true) ⟨rfl, nofun⟩)).snoc
    (step (.getInstance false Topology (.ok 8))
      ⟨nofun, fun a ha => Except.ok.inj ha ▸ rfl, nofun⟩)).snoc
    (step (.destroy true) nofun)
  exact ⟨_, run, rfl, (owns_instances run).2.2.1 8 ⟨Topology, none, nofun⟩ rfl⟩

end World

end Mammut.Handles
