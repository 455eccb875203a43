import ShapeForge.Proofs.Allocator

/-!
# Names of classes do not meet

One step of naming gives a class names that no earlier class has, with the names of its wrapper,
its builder and both modules (`next_lacks`). So the names of all classes stay apart from each other
and from the reserved ones (`nameClasses_sound`).

The module of a class is always the plain one: a class name is claimed only if its module is free.
-/

namespace ShapeForge

open Naming (Allocator Condition suffixed moduleNameFor)

namespace ClassNames

/-- The classes that are emitted for a class. -/
def classPool (n : ClassNames) : List String :=
  [n.className, Model.wrapperName n.className, Model.builderClassName n.className]

/-- The modules that are emitted for a class. -/
def modulePool (n : ClassNames) : List String := [n.moduleName, Model.wrapperModule n.moduleName]

/-- No name of one class is a name of the other. -/
structure Apart (n m : ClassNames) : Prop where
  classes : n.classPool.Disjoint m.classPool
  modules : n.modulePool.Disjoint m.modulePool
  builders : n.builderName ≠ m.builderName

theorem Apart.symm {n m : ClassNames} (h : n.Apart m) : m.Apart n :=
  ⟨h.classes.symm, h.modules.symm, h.builders.symm⟩

/-- The names are none of the reserved ones, and the module is that of the class name. -/
structure Proper (n : ClassNames) : Prop where
  classes : n.classPool.Disjoint Model.reservedClasses
  modules : n.modulePool.Disjoint Model.reservedModules
  builder : n.builderName ∉ Model.reservedBuilders
  moduleName : n.moduleName = moduleNameFor n.className

theorem classPool_nodup (n : ClassNames) : n.classPool.Nodup := by
  have hw : n.className ≠ Model.wrapperName n.className := fun h => by
    simpa [Model.wrapperName] using congrArg String.length h
  have hb : n.className ≠ Model.builderClassName n.className := fun h => by
    simpa [Model.builderClassName] using congrArg String.length h
  have hwb : Model.wrapperName n.className ≠ Model.builderClassName n.className := by
    simp [Model.wrapperName, Model.builderClassName]
  simp [classPool, hw, hb, hwb]

theorem modulePool_nodup (n : ClassNames) : n.modulePool.Nodup := by
  have hw : n.moduleName ≠ Model.wrapperModule n.moduleName := fun h => by
    simpa [Model.wrapperModule] using congrArg String.length h
  simp [modulePool, hw]

end ClassNames

namespace Model

namespace NamingState

variable (s : NamingState)

theorem usable_holds_iff {name : String} :
    s.usable.holds name = true ↔
      (wrapperName name ∉ s.classes.taken ∧ builderClassName name ∉ s.classes.taken)
        ∧ moduleNameFor name ∉ s.modules.taken
        ∧ wrapperModule (moduleNameFor name) ∉ s.modules.taken := by
  simp [usable, isUsable, Allocator.free_iff]

/-! ## One class -/

/-- None of the names is taken. -/
structure Lacks (n : ClassNames) : Prop where
  classes : n.classPool.Disjoint s.classes.taken
  modules : n.modulePool.Disjoint s.modules.taken
  builder : n.builderName ∉ s.builders.taken

/-- The names of a class that is named next. -/
def next (c : DeclaredClass) : ClassNames where
  className := s.classes.choose c.name s.usable
  moduleName := moduleNameFor (s.classes.choose c.name s.usable)
  builderName :=
    s.builders.choose (Naming.propertyNameFor (s.classes.choose c.name s.usable)) .none

theorem next_moduleName (c : DeclaredClass) :
    (s.next c).moduleName = moduleNameFor (s.next c).className := by
  simp only [next]

theorem next_lacks (c : DeclaredClass) : s.Lacks (s.next c) := by
  obtain ⟨hname, hus⟩ :=
    (s.classes.admits_iff).1 (s.classes.admits_choose c.name s.usable)
  obtain ⟨⟨hw, hb⟩, hm, hwm⟩ := s.usable_holds_iff.1 hus
  refine ⟨?_, ?_, ?_⟩
  · intro x hx
    simp only [ClassNames.classPool, next, List.mem_cons, List.not_mem_nil, or_false] at hx
    rcases hx with rfl | rfl | rfl
    · exact hname
    · exact hw
    · exact hb
  · intro x hx
    simp only [ClassNames.modulePool, next, List.mem_cons, List.not_mem_nil, or_false] at hx
    rcases hx with hx | hx <;> rw [hx]
    · exact hm
    · exact hwm
  · exact ((s.builders.admits_iff).1
      (s.builders.admits_choose _ .none)).1

/-- The module of a class that is named is free. -/
theorem admits_module (c : DeclaredClass) :
    s.modules.admits .none (moduleNameFor (s.classes.choose c.name s.usable)) = true := by
  refine (s.modules.admits_iff).2 ⟨?_, rfl⟩
  exact (s.next_lacks c).modules (by simp [ClassNames.modulePool, next])

theorem choose_module (c : DeclaredClass) :
    s.modules.choose (moduleNameFor (s.classes.choose c.name s.usable)) .none
      = moduleNameFor (s.classes.choose c.name s.usable) :=
  s.modules.choose_of_admits (s.admits_module c)

/-- Naming a class gives the notices of its name and of its builder, and none of its module. -/
theorem add_notices (c : DeclaredClass) :
    (s.add c).notices = s.notices ++ (s.classes.claim c.name c.iri s.usable).2.2
      ++ (s.builders.claim (Naming.propertyNameFor (s.next c).className) c.iri .none).2.2 := by
  have hall : (s.add c).notices = s.notices ++ (s.classes.claim c.name c.iri s.usable).2.2
      ++ (s.modules.claim (moduleNameFor (s.classes.choose c.name s.usable)) c.iri .none).2.2
      ++ (s.builders.claim (Naming.propertyNameFor (s.next c).className) c.iri .none).2.2 := rfl
  rw [hall, s.modules.claim_of_admits (s.admits_module c), List.append_nil]

theorem add_names (c : DeclaredClass) :
    (s.add c).names = Assoc.put c.iri (s.next c) s.names := by
  simp only [add, Allocator.claim, choose_module, next]

theorem mem_add_classes {c : DeclaredClass} {x : String} :
    x ∈ (s.add c).classes.taken ↔ x ∈ (s.next c).classPool ∨ x ∈ s.classes.taken := by
  simp only [add, Allocator.claim, Allocator.mem_taken_reserve, ClassNames.classPool, next,
    List.mem_cons, List.not_mem_nil, or_false]
  constructor
  · rintro (h | h | h | h)
    · exact .inl (.inr (.inr h))
    · exact .inl (.inr (.inl h))
    · exact .inl (.inl h)
    · exact .inr h
  · rintro ((h | h | h) | h)
    · exact .inr (.inr (.inl h))
    · exact .inr (.inl h)
    · exact .inl h
    · exact .inr (.inr (.inr h))

theorem mem_add_modules {c : DeclaredClass} {x : String} :
    x ∈ (s.add c).modules.taken ↔ x ∈ (s.next c).modulePool ∨ x ∈ s.modules.taken := by
  simp only [add, Allocator.claim, choose_module, Allocator.mem_taken_reserve,
    ClassNames.modulePool, next, List.mem_cons, List.not_mem_nil, or_false]
  rw [or_left_comm, or_assoc]

theorem mem_add_builders {c : DeclaredClass} {x : String} :
    x ∈ (s.add c).builders.taken ↔ x = (s.next c).builderName ∨ x ∈ s.builders.taken := by
  simp only [add, Allocator.claim, Allocator.mem_taken_reserve, next]

/-! ## All classes -/

/-- What naming keeps: the classes have distinct keys and names apart, all of their names are
taken, and so are the reserved ones. -/
structure Sound : Prop where
  keys : s.names.Pairwise (·.1 ≠ ·.1)
  apart : s.names.Pairwise fun a b => a.2.Apart b.2
  proper : ∀ e ∈ s.names, e.2.Proper
  classes : ∀ e ∈ s.names, e.2.classPool ⊆ s.classes.taken
  modules : ∀ e ∈ s.names, e.2.modulePool ⊆ s.modules.taken
  builders : ∀ e ∈ s.names, e.2.builderName ∈ s.builders.taken
  reservedClasses : reservedClasses ⊆ s.classes.taken
  reservedModules : reservedModules ⊆ s.modules.taken
  reservedBuilders : reservedBuilders ⊆ s.builders.taken

variable {s}

theorem Sound.next_apart (h : s.Sound) (c : DeclaredClass) {e : String × ClassNames}
    (he : e ∈ s.names) : e.2.Apart (s.next c) := by
  obtain ⟨hc, hm, hb⟩ := s.next_lacks c
  refine ⟨fun x hx hn => hc hn (h.classes e he hx), fun x hx hn => hm hn (h.modules e he hx), ?_⟩
  intro heq
  exact hb (heq ▸ h.builders e he)

theorem Sound.next_proper (h : s.Sound) (c : DeclaredClass) : (s.next c).Proper := by
  obtain ⟨hc, hm, hb⟩ := s.next_lacks c
  exact ⟨fun x hx hr => hc hx (h.reservedClasses hr), fun x hx hr => hm hx (h.reservedModules hr),
    fun hr => hb (h.reservedBuilders hr), s.next_moduleName c⟩

/-- Naming one more class keeps all names apart. -/
theorem Sound.add (h : s.Sound) (c : DeclaredClass) : (s.add c).Sound where
  keys := by
    rw [add_names]
    exact Assoc.pairwise_put h.keys h.keys fun e _ hne => ⟨hne, hne.symm⟩
  apart := by
    rw [add_names]
    exact Assoc.pairwise_put h.keys h.apart fun e he _ =>
      ⟨h.next_apart c he, (h.next_apart c he).symm⟩
  proper := by
    rw [add_names]
    intro e he
    rcases Assoc.mem_put he with rfl | he
    · exact h.next_proper c
    · exact h.proper e he
  classes := by
    rw [add_names]
    intro e he x hx
    rw [mem_add_classes]
    rcases Assoc.mem_put he with rfl | he
    · exact .inl hx
    · exact .inr (h.classes e he hx)
  modules := by
    rw [add_names]
    intro e he x hx
    rw [mem_add_modules]
    rcases Assoc.mem_put he with rfl | he
    · exact .inl hx
    · exact .inr (h.modules e he hx)
  builders := by
    rw [add_names]
    intro e he
    rw [mem_add_builders]
    rcases Assoc.mem_put he with rfl | he
    · exact .inl rfl
    · exact .inr (h.builders e he)
  reservedClasses := fun _ hx => (s.mem_add_classes).2 (.inr (h.reservedClasses hx))
  reservedModules := fun _ hx => (s.mem_add_modules).2 (.inr (h.reservedModules hx))
  reservedBuilders := fun _ hx => (s.mem_add_builders).2 (.inr (h.reservedBuilders hx))

theorem sound_start : ({} : NamingState).Sound where
  keys := .nil
  apart := .nil
  proper := by simp
  classes := by simp
  modules := by simp
  builders := by simp
  reservedClasses := fun _ hx => hx
  reservedModules := fun _ hx => hx
  reservedBuilders := fun _ hx => hx

theorem Sound.foldl_add : ∀ (cs : List DeclaredClass) {s : NamingState}, s.Sound →
    (cs.foldl NamingState.add s).Sound
  | [], _, h => h
  | c :: cs, _, h => Sound.foldl_add cs (h.add c)

theorem mem_keys_foldl_add {iri : String} : ∀ (cs : List DeclaredClass) (s : NamingState),
    iri ∈ (cs.foldl NamingState.add s).names.map (·.1) ↔
      iri ∈ cs.map DeclaredClass.iri ∨ iri ∈ s.names.map (·.1)
  | [], _ => by simp
  | c :: cs, s => by
    rw [List.foldl_cons, mem_keys_foldl_add cs, add_names, Assoc.mem_keys_put, List.map_cons,
      List.mem_cons, or_assoc, or_left_comm]

end NamingState

theorem nameClasses_sound (cs : List DeclaredClass) : (nameClasses cs).Sound :=
  NamingState.Sound.foldl_add cs NamingState.sound_start

/-- The classes that have names are those that were named. -/
theorem mem_keys_nameClasses {cs : List DeclaredClass} {iri : String} :
    iri ∈ (nameClasses cs).names.map (·.1) ↔ iri ∈ cs.map DeclaredClass.iri := by
  rw [nameClasses, NamingState.mem_keys_foldl_add]
  simp

end Model

end ShapeForge
