/-
SelfTyped.Proofs.HierarchyBuild — which programs have a hierarchy, and
what the violation of any other program says.

`Program.WellFormed` states the requirements on a program in terms of its
declarations alone: names are free where they are declared, `Main` is
there, parents may be inherited from, and no class reaches itself along
parent links.  `build_exact` says that building succeeds for exactly
these programs, what the hierarchy then holds, and that the violation of
another program is one of its own (`FirstFault`).

The delicate part is the search for cycles.  A walk compares only with
the class it started from and ends silently after as many steps as there
are classes.  Soundness needs no bound: a walk that comes back to its
start has gone round a cycle.  For completeness, the classes on a cycle
are distinct (`minimalPeriod_le`), so a walk that starts on the cycle is
back before its steps are used up.
-/
import Mathlib.Dynamics.PeriodicPts.Defs
import SelfTyped.Hierarchy.Build
import SelfTyped.Proofs.Ancestry

namespace SelfTyped

open Hierarchy (Rooted Below Extends)

/-! ## Well-formed programs -/

/-- The name is taken for a class that is declared after `before`: by a built-in class, by
`SELF_TYPE` or by an earlier class. -/
def NameTaken (before : List Class) (name : Name) : Prop :=
  Hierarchy.builtin.isDefined name = true ∨ name = Known.selfType ∨ name ∈ before.map Class.name

/-- Every class has a name that is free where the class is declared. -/
def NamesFree (classes : List Class) : Prop :=
  ∀ before c after, classes = before ++ c :: after → ¬ NameTaken before c.name

namespace Program

/-- The built-in classes and those of a program, whether or not they go together. -/
def declared (p : Program) : Hierarchy :=
  ⟨Builtin.classes ++ p.classes.map ClassSignature.ofClass⟩

/-- The program declares the class `Main`. -/
def HasMain (p : Program) : Prop :=
  ∃ c ∈ p.classes, c.name = Known.main

/-- The parent of a class may be inherited from. -/
def ParentFits (p : Program) (c : Class) : Prop :=
  c.parent ∉ [Known.int, Known.bool, Known.string, Known.selfType] ∧
    p.declared.isDefined c.parent = true

/-- The class hierarchy of a program is without faults. -/
structure WellFormed (p : Program) : Prop where
  names : NamesFree p.classes
  main : p.HasMain
  parents : ∀ c ∈ p.classes, p.ParentFits c
  acyclic : ∀ c ∈ p.classes, ¬ Relation.TransGen p.declared.Extends c.name c.name

/-- What can be wrong with the parent link of a class. -/
inductive LinkFault (p : Program) (c : Class) : HierarchyError → Prop
  | isSealed (link : c.parent ∈ [Known.int, Known.bool, Known.string, Known.selfType]) :
      LinkFault p c (.inheritsFromSealed c.name c.parent)
  | unknown (link : p.declared.isDefined c.parent = false) :
      LinkFault p c (.undefinedParent c.name c.parent)
  | cycle (link : Relation.TransGen p.declared.Extends c.name c.name) :
      LinkFault p c (.inheritanceCycle c.name)

/-- A violation that is right for a program: an error of the first of the three stages that fails,
at a class declaration that it is true of. -/
inductive FirstFault (p : Program) : Violation → Prop
  | basicRedefined {before : List Class} {c : Class} {after : List Class}
      (split : p.classes = before ++ c :: after) (free : NamesFree before)
      (taken : Hierarchy.builtin.isDefined c.name = true ∨ c.name = Known.selfType) :
      FirstFault p ⟨some ⟨c.file, c.line⟩, .basicClassRedefined c.name⟩
  | redefined {before : List Class} {c : Class} {after : List Class}
      (split : p.classes = before ++ c :: after) (free : NamesFree before)
      (taken : c.name ∈ before.map Class.name) :
      FirstFault p ⟨some ⟨c.file, c.line⟩, .classRedefined c.name⟩
  | noMain (names : NamesFree p.classes) (missing : ¬ p.HasMain) :
      FirstFault p ⟨none, .mainNotDefined⟩
  | link {c : Class} {error : HierarchyError} (names : NamesFree p.classes) (main : p.HasMain)
      (hc : c ∈ p.classes) (fault : p.LinkFault c error) :
      FirstFault p ⟨some ⟨c.file, c.line⟩, error⟩

/-- A class whose parent link is at fault makes a program ill-formed. -/
theorem LinkFault.not_wellFormed {p : Program} {d : Class} {error : HierarchyError}
    (hd : d ∈ p.classes) (fault : p.LinkFault d error) : ¬ p.WellFormed := by
  intro wf
  cases fault with
  | isSealed link => exact (wf.parents d hd).1 link
  | unknown link => simp [(wf.parents d hd).2] at link
  | cycle link => exact wf.acyclic d hd link

end Program

/-! ## Free names -/

theorem namesFree_nil : NamesFree [] := by
  intro before c after split
  exact absurd split (by simp)

theorem namesFree_concat {classes : List Class} {c : Class} :
    NamesFree (classes ++ [c]) ↔ NamesFree classes ∧ ¬ NameTaken classes c.name := by
  constructor
  · intro free
    refine ⟨fun before d after split => ?_, free classes c [] rfl⟩
    exact free before d (after ++ [c]) (by rw [split, List.append_assoc, List.cons_append])
  · rintro ⟨free, fresh⟩ before d after split
    rcases List.eq_nil_or_concat after with rfl | ⟨after, e, rfl⟩
    · obtain ⟨rfl, last⟩ := List.append_inj' split rfl
      rw [List.cons.injEq] at last
      rw [← last.1]
      exact fresh
    · rw [List.concat_eq_append, ← List.cons_append, ← List.append_assoc] at split
      exact free before d after (List.append_inj' split rfl).1

theorem not_builtin_of_namesFree {classes : List Class} (free : NamesFree classes) {c : Class}
    (hc : c ∈ classes) : Hierarchy.builtin.isDefined c.name = false ∧ c.name ≠ Known.selfType := by
  obtain ⟨before, after, split⟩ := List.append_of_mem hc
  have fresh := free before c after split
  rw [NameTaken, not_or, not_or, Bool.not_eq_true] at fresh
  exact ⟨fresh.1, fresh.2.1⟩

theorem not_namesFree {classes before after : List Class} {c : Class}
    (split : classes = before ++ c :: after) (taken : NameTaken before c.name) :
    ¬ NamesFree classes := by
  intro free
  exact free before c after split taken

@[simp] theorem ofClass_name (c : Class) : (ClassSignature.ofClass c).name = c.name := rfl

@[simp] theorem ofClass_parent (c : Class) :
    (ClassSignature.ofClass c).parent = some c.parent := rfl

theorem declared_names (classes : List Class) :
    (Builtin.classes ++ classes.map ClassSignature.ofClass).map ClassSignature.name =
      Builtin.classes.map ClassSignature.name ++ classes.map Class.name := by
  rw [List.map_append, List.map_map]
  rfl

/-- Where names are free, every class is known once. -/
theorem distinct_of_namesFree {classes : List Class} (free : NamesFree classes) :
    ((Builtin.classes ++ classes.map ClassSignature.ofClass).map ClassSignature.name).Nodup := by
  rw [declared_names]
  induction classes using List.reverseRecOn with
  | nil => decide
  | append_singleton classes c ih =>
    obtain ⟨free, fresh⟩ := namesFree_concat.mp free
    rw [NameTaken, not_or, not_or, Hierarchy.isDefined_iff_mem] at fresh
    rw [List.map_append, List.map_singleton, ← List.append_assoc, List.nodup_append]
    refine ⟨ih free, List.nodup_singleton _, ?_⟩
    rintro name hname _ hlast rfl
    rw [List.mem_singleton] at hlast
    subst hlast
    exact (List.mem_append.mp hname).elim fresh.1 fresh.2.2

/-! ## Registration -/

namespace Hierarchy

variable {p : Program}

/-- The class that a name is taken by. -/
theorem find?_declared (classes : List Class) (name : Name) :
    (Hierarchy.mk (Builtin.classes ++ classes.map ClassSignature.ofClass)).find? name =
      (builtin.find? name).or
        ((classes.find? fun c => c.name == name).map ClassSignature.ofClass) := by
  rw [find?, List.find?_append, List.find?_map]
  rfl

theorem builtin_of_find? {name : Name} {c : ClassSignature} (found : builtin.find? name = some c) :
    c.builtin = true := by
  have all : ∀ c ∈ Builtin.classes, c.builtin = true := by decide
  exact all c (find?_mem found).1

/-- Registration goes through to the end, or stops at the first class whose name is taken. -/
theorem register_cases (before rest : List Class) (hp : p.classes = before ++ rest)
    (free : NamesFree before) :
    (NamesFree p.classes ∧
        register ⟨Builtin.classes ++ before.map ClassSignature.ofClass⟩ rest = .ok p.declared) ∨
      ∃ v, register ⟨Builtin.classes ++ before.map ClassSignature.ofClass⟩ rest = .error v ∧
        p.FirstFault v ∧ ¬ NamesFree p.classes := by
  induction rest generalizing before with
  | nil =>
    rw [List.append_nil] at hp
    rw [Program.declared, hp]
    exact Or.inl ⟨free, rfl⟩
  | cons c rest ih =>
    rw [register, find?_declared]
    cases hb : builtin.find? c.name with
    | some existing =>
      have taken : builtin.isDefined c.name = true := isDefined_iff_find?.mpr ⟨existing, hb⟩
      refine Or.inr ⟨_, rfl, ?_, not_namesFree hp (Or.inl taken)⟩
      rw [builtin_of_find? hb]
      exact .basicRedefined hp free (Or.inl taken)
    | none =>
      cases hd : before.find? fun d => d.name == c.name with
      | some d =>
        have same : d.name = c.name := by simpa using List.find?_some hd
        have taken : c.name ∈ before.map Class.name :=
          same ▸ List.mem_map_of_mem (List.mem_of_find?_eq_some hd)
        exact Or.inr ⟨_, rfl, .redefined hp free taken,
          not_namesFree hp (Or.inr (Or.inr taken))⟩
      | none =>
        by_cases hself : c.name = Known.selfType
        · refine Or.inr ⟨_, ?_, .basicRedefined hp free (Or.inr hself),
            not_namesFree hp (Or.inr (Or.inl hself))⟩
          simp only [Option.map_none, Option.or_none, hself, if_true]
          rfl
        · have fresh : ¬ NameTaken before c.name := by
            rintro (taken | taken | taken)
            · obtain ⟨existing, found⟩ := isDefined_iff_find?.mp taken
              rw [hb] at found
              exact absurd found (by simp)
            · exact hself taken
            · obtain ⟨d, hd', same⟩ := List.mem_map.mp taken
              exact absurd same (by simpa using List.find?_eq_none.mp hd d hd')
          have := ih (before ++ [c]) (by rw [hp, List.append_assoc]; rfl)
            (namesFree_concat.mpr ⟨free, fresh⟩)
          rw [List.map_append, List.map_singleton, ← List.append_assoc] at this
          simpa only [Option.map_none, Option.or_none, hself, if_false] using this

theorem register_builtin_cases (p : Program) :
    (NamesFree p.classes ∧ builtin.register p.classes = .ok p.declared) ∨
      ∃ v, builtin.register p.classes = .error v ∧ p.FirstFault v ∧ ¬ NamesFree p.classes := by
  exact register_cases (p := p) [] p.classes rfl namesFree_nil

/-! ## Classes of a program -/

variable {a b start parent : Name} {c : ClassSignature} {steps : Nat} {v : Violation}

theorem isSealed_iff_mem :
    parent.isSealed = true ↔
      parent ∈ [Known.int, Known.bool, Known.string, Known.selfType] := by
  simp [Name.isSealed, Name.isBasicValue, or_assoc]

theorem mem_declared (hc : c ∈ p.declared.classes) :
    c ∈ Builtin.classes ∨ ∃ d ∈ p.classes, ClassSignature.ofClass d = c := by
  rw [Program.declared, List.mem_append, List.mem_map] at hc
  exact hc

theorem builtin_mem_declared (hc : c ∈ Builtin.classes) : c ∈ p.declared.classes :=
  List.mem_append_left _ hc

theorem ofClass_mem_declared {c : Class} (hc : c ∈ p.classes) :
    ClassSignature.ofClass c ∈ p.declared.classes :=
  List.mem_append_right _ (List.mem_map_of_mem hc)

theorem builtin_parent : ∀ c ∈ Builtin.classes, ∀ b, c.parent = some b → b = Known.object := by
  decide

/-- Only a class of the program has a parent other than `Object`. -/
theorem class_of_link (hc : c ∈ p.declared.classes) (link : c.parent = some b)
    (other : b ≠ Known.object) : ∃ d ∈ p.classes, ClassSignature.ofClass d = c := by
  rcases mem_declared hc with builtin | user
  · exact absurd (builtin_parent c builtin b link) other
  · exact user

theorem object_isDefined (p : Program) : p.declared.isDefined Known.object = true :=
  isDefined_of_mem (c := Builtin.object) (builtin_mem_declared List.mem_cons_self)

theorem declared_distinct (names : NamesFree p.classes) :
    (p.declared.classes.map ClassSignature.name).Nodup :=
  distinct_of_namesFree names

/-- Only `Object` has no parent. -/
theorem declared_top (names : NamesFree p.classes) :
    ∀ c ∈ p.declared.classes, c.parent = none ↔ c.name = Known.object := by
  intro c hc
  rcases mem_declared hc with builtin | ⟨d, hd, rfl⟩
  · have all : ∀ c ∈ Builtin.classes, c.parent = none ↔ c.name = Known.object := by decide
    exact all c builtin
  · constructor
    · intro noParent
      exact absurd noParent (by simp)
    · intro isObject
      have fresh := (not_builtin_of_namesFree names hd).1
      rw [ofClass_name] at isObject
      rw [isObject] at fresh
      exact absurd fresh (by decide)

theorem not_extends_object (names : NamesFree p.classes) :
    ¬ p.declared.Extends Known.object b := by
  rintro ⟨c, hc, isObject, link⟩
  rw [(declared_top names c hc).mpr isObject] at link
  exact absurd link (by simp)

/-! ## Walks up from a class -/

theorem violationAt_ofClass {c : Class} {error : HierarchyError}
    (failed : violationAt (α := Unit) (ClassSignature.ofClass c) error = .error v) :
    v = ⟨some ⟨c.file, c.line⟩, error⟩ := by
  rw [violationAt, Except.error.injEq] at failed
  exact failed.symm

/-- A walk fails only at a class whose parent link is at fault. -/
theorem checkParents_error (hc : c ∈ p.declared.classes)
    (below : p.declared.Below start c.name)
    (failed : p.declared.checkParents start steps c = .error v) :
    ∃ d ∈ p.classes, ∃ error, v = ⟨some ⟨d.file, d.line⟩, error⟩ ∧ p.LinkFault d error := by
  fun_induction checkParents p.declared start steps c with
  | case1 => simp at failed
  | case2 => simp at failed
  | case3 _ current parent link other isSealed =>
    obtain ⟨d, hd, rfl⟩ := class_of_link hc link other
    rw [ofClass_parent, Option.some.injEq] at link
    subst link
    exact ⟨d, hd, _, violationAt_ofClass failed, .isSealed (isSealed_iff_mem.mp isSealed)⟩
  | case4 _ current parent link other _ unknown =>
    obtain ⟨d, hd, rfl⟩ := class_of_link hc link other
    rw [ofClass_parent, Option.some.injEq] at link
    subst link
    exact ⟨d, hd, _, violationAt_ofClass failed, .unknown (find?_eq_none_iff.mp unknown)⟩
  | case5 _ current next link other =>
    -- the parent is the start of the walk, and the walk has come from there
    have cyclic : Relation.TransGen p.declared.Extends current.name current.name :=
      Relation.TransGen.head' ⟨current, hc, rfl, link⟩ below
    obtain ⟨d, hd, rfl⟩ := class_of_link hc link other
    exact ⟨d, hd, _, violationAt_ofClass failed, .cycle cyclic⟩
  | case6 => simp at failed
  | case7 current parent link _ _ next found _ _ ih =>
    obtain ⟨hnext, rfl⟩ := find?_mem found
    exact ih hnext (below.tail ⟨current, hc, rfl, link⟩) failed

/-- A walk that goes through has found nothing wrong with the parent it started with. -/
theorem checkParents_ok_parent {d : Class}
    (passed : p.declared.checkParents start steps (ClassSignature.ofClass d) = .ok ()) :
    p.ParentFits d := by
  rw [Program.ParentFits, ← isSealed_iff_mem]
  by_cases isObject : d.parent = Known.object
  · rw [isObject]
    exact ⟨by decide, object_isDefined p⟩
  · rw [checkParents.eq_def] at passed
    simp only [ofClass_parent, isObject, if_false] at passed
    cases isSealed : d.parent.isSealed with
    | true => simp [isSealed, violationAt] at passed
    | false =>
      cases found : p.declared.find? d.parent with
      | none => simp [isSealed, found, violationAt] at passed
      | some next => exact ⟨by simp, isDefined_iff_find?.mpr ⟨next, found⟩⟩

/-! ## Walks round a cycle -/

/-- The parent of a class, or the class itself if it has none. -/
def up (h : Hierarchy) (a : Name) : Name :=
  ((h.find? a).bind ClassSignature.parent).getD a

theorem up_of_extends {h : Hierarchy} (distinct : (h.classes.map ClassSignature.name).Nodup)
    (link : h.Extends a b) : h.up a = b := by
  obtain ⟨c, found, hp⟩ := link.find? distinct
  rw [up, found, Option.bind_some, hp, Option.getD_some]

theorem exists_iterate_up {h : Hierarchy} (distinct : (h.classes.map ClassSignature.name).Nodup)
    (above : Relation.TransGen h.Extends a b) : ∃ n, 0 < n ∧ h.up^[n] a = b := by
  induction above with
  | single link => exact ⟨1, Nat.one_pos, up_of_extends distinct link⟩
  | tail _ link ih =>
    obtain ⟨n, _, hn⟩ := ih
    exact ⟨n + 1, Nat.succ_pos n, by
      rw [Function.iterate_succ_apply', hn, up_of_extends distinct link]⟩

/-- The parent of a class on a cycle is on the cycle. -/
theorem cyclic_of_extends {h : Hierarchy} (distinct : (h.classes.map ClassSignature.name).Nodup)
    (cyclic : Relation.TransGen h.Extends a a) (link : h.Extends a b) :
    Relation.TransGen h.Extends b b := by
  obtain ⟨b', link', back⟩ := Relation.TransGen.head'_iff.mp cyclic
  rw [extends_unique distinct link' link] at back
  exact Relation.TransGen.tail' back link

/-- Going up from a class on a cycle never leads out of it. -/
theorem cyclic_iterate_up {h : Hierarchy} (distinct : (h.classes.map ClassSignature.name).Nodup)
    (cyclic : Relation.TransGen h.Extends a a) (n : Nat) :
    Relation.TransGen h.Extends (h.up^[n] a) (h.up^[n] a) := by
  induction n with
  | zero => exact cyclic
  | succ n ih =>
    obtain ⟨b, link, _⟩ := Relation.TransGen.head'_iff.mp ih
    rw [Function.iterate_succ_apply', up_of_extends distinct link]
    exact cyclic_of_extends distinct ih link

/-- A cycle has at most as many members as there are classes. -/
theorem minimalPeriod_le {h : Hierarchy} (distinct : (h.classes.map ClassSignature.name).Nodup)
    (cyclic : Relation.TransGen h.Extends a a) :
    Function.minimalPeriod h.up a ≤ h.classes.length := by
  have orbit : ((List.range (Function.minimalPeriod h.up a)).map (h.up^[·] a)).Nodup := by
    refine List.Nodup.map_on ?_ List.nodup_range
    intro i hi j hj same
    rw [List.mem_range] at hi hj
    exact Function.iterate_injOn_Iio_minimalPeriod hi hj same
  have known : (List.range (Function.minimalPeriod h.up a)).map (h.up^[·] a) ⊆
      h.classes.map ClassSignature.name := by
    intro name hname
    obtain ⟨n, _, rfl⟩ := List.mem_map.mp hname
    obtain ⟨b, link, _⟩ := Relation.TransGen.head'_iff.mp (cyclic_iterate_up distinct cyclic n)
    exact isDefined_iff_mem.mp link.isDefined
  have hle := (orbit.subperm known).length_le
  simpa using hle

/-- A walk on a cycle that goes through has not come to its start. -/
theorem checkParents_ok_iterate (names : NamesFree p.classes) (hc : c ∈ p.declared.classes)
    (cyclic : Relation.TransGen p.declared.Extends c.name c.name)
    (passed : p.declared.checkParents start steps c = .ok ()) :
    ∀ n ≤ steps, p.declared.up^[n + 1] c.name ≠ start := by
  have distinct := declared_distinct names
  fun_induction checkParents p.declared start steps c with
  | case1 _ current noParent =>
    obtain ⟨b, link, _⟩ := Relation.TransGen.head'_iff.mp cyclic
    obtain ⟨d, found, hp⟩ := link.find? distinct
    rw [find?_name distinct hc, Option.some.injEq] at found
    rw [← found, noParent] at hp
    exact absurd hp (by simp)
  | case2 _ current isObject =>
    -- `Object` is not on a cycle
    have next := cyclic_of_extends distinct cyclic ⟨current, hc, rfl, isObject⟩
    obtain ⟨b, link, _⟩ := Relation.TransGen.head'_iff.mp next
    exact absurd link (not_extends_object names)
  | case3 => simp [violationAt] at passed
  | case4 => simp [violationAt] at passed
  | case5 => simp [violationAt] at passed
  | case6 current parent link _ _ next found other =>
    intro n hn
    rw [Nat.le_zero.mp hn, Function.iterate_succ_apply, Function.iterate_zero_apply,
      up_of_extends distinct ⟨current, hc, rfl, link⟩]
    exact other
  | case7 current parent link _ _ next found other steps ih =>
    have step : p.declared.Extends current.name parent := ⟨current, hc, rfl, link⟩
    have cyclicNext := cyclic_of_extends distinct cyclic step
    intro n hn
    rw [Function.iterate_succ_apply, up_of_extends distinct step]
    cases n with
    | zero => exact other
    | succ n =>
      obtain ⟨hnext, rfl⟩ := find?_mem found
      exact ih hnext cyclicNext passed n (Nat.le_of_succ_le_succ hn)

/-- A walk that starts on a cycle fails. -/
theorem acyclic_of_checkParents (names : NamesFree p.classes) (hc : c ∈ p.declared.classes)
    (passed : p.declared.checkParents c.name p.declared.classes.length c = .ok ()) :
    ¬ Relation.TransGen p.declared.Extends c.name c.name := by
  intro cyclic
  have distinct := declared_distinct names
  have round : Function.IsPeriodicPt p.declared.up
      (Function.minimalPeriod p.declared.up c.name) c.name :=
    Function.isPeriodicPt_minimalPeriod _ _
  obtain ⟨n, hpos, hn⟩ := exists_iterate_up distinct cyclic
  have period : 0 < Function.minimalPeriod p.declared.up c.name :=
    Function.IsPeriodicPt.minimalPeriod_pos hpos hn
  have short := minimalPeriod_le distinct cyclic
  refine checkParents_ok_iterate names hc cyclic passed
    (Function.minimalPeriod p.declared.up c.name - 1) (by omega) ?_
  rw [Nat.sub_add_cancel period]
  exact round

/-! ## Building -/

theorem checkClasses_cases (h : Hierarchy) (classes : List Class) :
    (h.checkClasses classes = .ok () ∧
        ∀ c ∈ classes, h.checkParents c.name h.classes.length (ClassSignature.ofClass c) = .ok ()) ∨
      ∃ v, h.checkClasses classes = .error v ∧
        ∃ c ∈ classes,
          h.checkParents c.name h.classes.length (ClassSignature.ofClass c) = .error v := by
  induction classes with
  | nil => exact Or.inl ⟨rfl, by simp⟩
  | cons c rest ih =>
    rw [checkClasses]
    cases checked : h.checkParents c.name h.classes.length (ClassSignature.ofClass c) with
    | error v => exact Or.inr ⟨v, rfl, c, List.mem_cons_self, checked⟩
    | ok _ =>
      rcases ih with ⟨passed, all⟩ | ⟨v, failed, d, hd, hv⟩
      · refine Or.inl ⟨passed, ?_⟩
        intro d hd
        rcases List.mem_cons.mp hd with rfl | hd
        · exact checked
        · exact all d hd
      · exact Or.inr ⟨v, failed, d, List.mem_cons_of_mem c hd, hv⟩

theorem hasMain_iff (p : Program) : p.declared.isDefined Known.main = true ↔ p.HasMain := by
  rw [isDefined_iff_mem, Program.declared, declared_names, List.mem_append]
  constructor
  · rintro (builtin | user)
    · exact absurd builtin (by decide)
    · exact List.mem_map.mp user
  · intro user
    exact Or.inr (List.mem_map.mpr user)

/-- Building ends in one of two ways. -/
theorem build_cases (p : Program) :
    (p.WellFormed ∧ build p = .ok p.declared) ∨
      ∃ v, build p = .error v ∧ p.FirstFault v ∧ ¬ p.WellFormed := by
  rw [build]
  rcases register_builtin_cases p with ⟨names, registered⟩ | ⟨v, refused, fault, notFree⟩
  · simp only [registered]
    cases main : p.declared.isDefined Known.main with
    | false =>
      have missing : ¬ p.HasMain := by
        rw [← hasMain_iff, main]
        exact Bool.false_ne_true
      refine Or.inr ⟨_, ?_, .noMain names missing, fun wf => missing wf.main⟩
      simp only [bind, Except.bind, main, Bool.false_eq_true, if_false]
    | true =>
      have hasMain := (hasMain_iff p).mp main
      rcases checkClasses_cases p.declared p.classes with ⟨passed, all⟩ | ⟨v, failed, c, hc, hv⟩
      · refine Or.inl ⟨⟨names, hasMain, ?_, ?_⟩, ?_⟩
        · intro c hc
          exact checkParents_ok_parent (all c hc)
        · intro c hc
          exact acyclic_of_checkParents names (ofClass_mem_declared hc) (all c hc)
        · simp only [bind, Except.bind, main, if_true, passed]
          rfl
      · obtain ⟨d, hd, error, rfl, fault⟩ :=
          checkParents_error (ofClass_mem_declared hc) Relation.ReflTransGen.refl hv
        refine Or.inr ⟨_, ?_, .link names hasMain hd fault, fault.not_wellFormed hd⟩
        simp only [bind, Except.bind, main, if_true, failed]
  · refine Or.inr ⟨v, ?_, fault, fun wf => notFree wf.names⟩
    simp only [bind, Except.bind, refused]

theorem build_eq_ok_iff {h : Hierarchy} :
    build p = .ok h ↔ p.WellFormed ∧ h = p.declared := by
  rcases build_cases p with ⟨wf, built⟩ | ⟨v, failed, _, notWf⟩
  · rw [built, Except.ok.injEq]
    exact ⟨fun same => ⟨wf, same.symm⟩, fun both => both.2.symm⟩
  · rw [failed]
    exact ⟨fun same => absurd same (by simp), fun both => absurd both.1 notWf⟩

theorem firstFault_of_build {v : Violation} (failed : build p = .error v) : p.FirstFault v := by
  rcases build_cases p with ⟨_, built⟩ | ⟨v', failed', fault, _⟩
  · rw [built] at failed
    exact absurd failed (by simp)
  · rw [failed', Except.error.injEq] at failed
    exact failed ▸ fault

/-! ## Hierarchies without faults -/

/-- Classes with free names, fitting parents and no cycle make a rooted hierarchy. -/
theorem declared_rooted (names : NamesFree p.classes)
    (parents : ∀ c ∈ p.classes, p.ParentFits c)
    (acyclic : ∀ c ∈ p.classes, ¬ Relation.TransGen p.declared.Extends c.name c.name) :
    p.declared.Rooted where
  distinct := declared_distinct names
  closed := by
    rintro a b ⟨c, hc, rfl, link⟩
    rcases mem_declared hc with builtin | ⟨d, hd, rfl⟩
    · rw [builtin_parent c builtin b link]
      exact object_isDefined p
    · rw [ofClass_parent, Option.some.injEq] at link
      rw [← link]
      exact (parents d hd).2
  top := declared_top names
  object := object_isDefined p
  selfType := by
    rw [Bool.eq_false_iff, ne_eq, isDefined_iff_mem, Program.declared, declared_names,
      List.mem_append]
    rintro (builtin | user)
    · exact absurd builtin (by decide)
    · obtain ⟨c, hc, isSelfType⟩ := List.mem_map.mp user
      exact (not_builtin_of_namesFree names hc).2 isSelfType
  acyclic := by
    intro a cyclic
    obtain ⟨b, ⟨c, hc, rfl, link⟩, _⟩ := Relation.TransGen.head'_iff.mp cyclic
    rcases mem_declared hc with builtin | ⟨d, hd, rfl⟩
    · -- above a built-in class there is `Object` only
      rw [builtin_parent c builtin b link] at link
      have next := cyclic_of_extends (declared_distinct names) cyclic ⟨c, hc, rfl, link⟩
      obtain ⟨b', link', _⟩ := Relation.TransGen.head'_iff.mp next
      exact not_extends_object names link'
    · exact acyclic d hd cyclic

theorem build_rooted {h : Hierarchy} (built : build p = .ok h) : h.Rooted := by
  obtain ⟨wf, rfl⟩ := build_eq_ok_iff.mp built
  exact declared_rooted wf.names wf.parents wf.acyclic

theorem builtin_rooted : builtin.Rooted :=
  declared_rooted (p := ⟨[]⟩) namesFree_nil (by simp) (by simp)

/-- Nothing is below `Int`, `Bool` or `String` but the class itself. -/
theorem eq_of_below_basic (parents : ∀ c ∈ p.classes, p.ParentFits c)
    (basic : b ∈ [Known.int, Known.bool, Known.string]) (below : p.declared.Below a b) : a = b := by
  rcases Relation.ReflTransGen.cases_tail below with rfl | ⟨a', _, c, hc, rfl, link⟩
  · rfl
  · have other : b ≠ Known.object := by
      rintro rfl
      exact absurd basic (by decide)
    obtain ⟨d, hd, rfl⟩ := class_of_link hc link other
    rw [ofClass_parent, Option.some.injEq] at link
    subst link
    exact absurd (List.mem_append_left [Known.selfType] basic) (parents d hd).1

/-! ## The main statement -/

/-- **Building is exact.**  It succeeds for exactly the well-formed programs.  The hierarchy then
holds the built-in classes and those of the program in the order of declaration, every name once,
and nothing but the class itself is below `Int`, `Bool` or `String`.  Any other program is answered
with a violation of the first stage that fails, true of the class it is located at. -/
theorem build_exact (p : Program) :
    ((∃ h, build p = .ok h) ↔ p.WellFormed) ∧
      (∀ h, build p = .ok h →
        h.classes = Builtin.classes ++ p.classes.map ClassSignature.ofClass ∧
          (h.classes.map ClassSignature.name).Nodup ∧
          ∀ a b, b ∈ [Known.int, Known.bool, Known.string] → h.Below a b → a = b) ∧
      ∀ v, build p = .error v → p.FirstFault v := by
  refine ⟨?_, ?_, fun v => firstFault_of_build⟩
  · constructor
    · rintro ⟨h, built⟩
      exact (build_eq_ok_iff.mp built).1
    · intro wf
      exact ⟨p.declared, build_eq_ok_iff.mpr ⟨wf, rfl⟩⟩
  · intro h built
    obtain ⟨wf, rfl⟩ := build_eq_ok_iff.mp built
    refine ⟨rfl, declared_distinct wf.names, ?_⟩
    intro a b basic below
    exact eq_of_below_basic wf.parents basic below

/-- A cycle that the first walk, from the class `C`, enters without being on it. -/
theorem build_exact_foreign_cycle :
    Program.FirstFault
      ⟨[⟨1, "Main", "Object", "cycle.cl", []⟩, ⟨2, "C", "A", "cycle.cl", []⟩,
        ⟨3, "A", "B", "cycle.cl", []⟩, ⟨4, "B", "A", "cycle.cl", []⟩]⟩
      ⟨some ⟨"cycle.cl", 4⟩, .inheritanceCycle "B"⟩ :=
  (build_exact _).2.2 _ rfl

end Hierarchy

end SelfTyped
