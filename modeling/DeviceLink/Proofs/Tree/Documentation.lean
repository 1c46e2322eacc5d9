import DeviceLink.Tree.Names
import Mathlib.Data.List.Basic

/-!
What a tree says beside its documentation: summaries, labels of the reference and metadata. A tree
without them has the same names, the same walk and the same endpoints.
-/

set_option autoImplicit false
set_option relaxedAutoImplicit false

namespace DeviceLink

def Info.undocumented (info : Info) : Info where
  name := info.name
  parent := info.parent
  qualifier := info.qualifier

def Argument.undocumented (a : Argument) : Argument :=
  { a with summary := none }

def Body.undocumented : Body → Body
  | .function f => .function { f with arguments := f.arguments.map Argument.undocumented }
  | body => body

def Entity.undocumented (e : Entity) : Entity :=
  ⟨e.info.undocumented, e.body.undocumented⟩

def Tree.undocumented (t : Tree) : Tree :=
  { t with entities := (t.entities.toList.map Entity.undocumented).toArray }

namespace Entity

@[simp] theorem name_undocumented (e : Entity) : e.undocumented.name = e.name :=
  rfl

@[simp] theorem parent_undocumented (e : Entity) : e.undocumented.info.parent = e.info.parent :=
  rfl

@[simp] theorem children_undocumented (e : Entity) : e.undocumented.children = e.children := by
  obtain ⟨info, body⟩ := e
  cases body <;> rfl

@[simp] theorem isEndpoint_undocumented (e : Entity) : e.undocumented.isEndpoint = e.isEndpoint := by
  obtain ⟨info, body⟩ := e
  cases body <;> rfl

end Entity

namespace Tree

variable (t : Tree) (id : Nat)

theorem get?_undocumented : t.undocumented.get? id = (t.get? id).map Entity.undocumented := by
  simp [get?, undocumented]

@[simp] theorem size_undocumented : t.undocumented.size = t.size := by
  simp [size, undocumented]

@[simp] theorem children_undocumented : t.undocumented.children id = t.children id := by
  rw [children, children, get?_undocumented]
  cases t.get? id with
  | none => rfl
  | some e => exact e.children_undocumented

@[simp] theorem pathNames_undocumented : t.undocumented.pathNames id = t.pathNames id := by
  induction id using Nat.strongRecOn with
  | ind id ih =>
    rw [pathNames, pathNames, get?_undocumented]
    cases t.get? id with
    | none => rfl
    | some e =>
      simp only [Option.map_some, Entity.name_undocumented, Entity.parent_undocumented]
      cases e.info.parent with
      | none => rfl
      | some p =>
        by_cases before : p < id
        · simp only [before, if_true, ih p before]
        · simp only [before, if_false]

@[simp] theorem fullName_undocumented : t.undocumented.fullName id = t.fullName id := by
  rw [fullName, fullName, pathNames_undocumented]

@[simp] theorem underscoredName_undocumented :
    t.undocumented.underscoredName id = t.underscoredName id := by
  rw [underscoredName, underscoredName, fullName_undocumented]

@[simp] theorem functionName_undocumented : t.undocumented.functionName id = t.functionName id := by
  rw [functionName, functionName, underscoredName_undocumented]

@[simp] theorem enumerators_undocumented : t.undocumented.enumerators id = t.enumerators id := by
  have stem : t.undocumented.enumeratorStem id = t.enumeratorStem id := by
    rw [enumeratorStem, enumeratorStem, underscoredName_undocumented]
  rw [enumerators, enumerators, get?_undocumented]
  cases t.get? id with
  | none => rfl
  | some e =>
    obtain ⟨info, body⟩ := e
    cases body with
    | node | register | function => rfl
    | selector | bitmask => simp only [Option.map_some, Entity.undocumented, Body.undocumented, stem]

private theorem subtree_undocumented : t.undocumented.subtree id = t.subtree id := by
  fun_induction subtree t id with
  | case1 id ih =>
    rw [subtree, children_undocumented, size_undocumented]
    refine congrArg (id :: ·) (List.flatMap_congr fun c inside => ?_)
    by_cases later : id < c ∧ c < t.size
    · rw [if_pos later, if_pos later, ih c later]
    · rw [if_neg later, if_neg later]

@[simp] theorem endpoints_undocumented : t.undocumented.endpoints = t.endpoints := by
  rw [endpoints, endpoints, walk, walk, subtree_undocumented]
  refine List.filter_congr fun id _ => ?_
  rw [get?_undocumented]
  cases t.get? id with
  | none => rfl
  | some e => exact e.isEndpoint_undocumented

end Tree

end DeviceLink
