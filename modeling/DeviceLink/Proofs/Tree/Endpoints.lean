import DeviceLink.Proofs.Lists
import DeviceLink.Proofs.Tree.Paths

/-!
The endpoints of a tree, their enumerators and their addresses. The endpoints are the places with an
address (`mem_endpoints`), and where the addresses are dense, the address of an endpoint tells its
number in the walk (`Dense.getElem?_endpoints_iff`).
-/

set_option autoImplicit false
set_option relaxedAutoImplicit false

namespace DeviceLink

namespace Entity

private theorem isSome_endpoint? (e : Entity) : e.endpoint?.isSome = e.isEndpoint := by
  obtain ⟨info, body⟩ := e
  cases body <;> rfl

private theorem ite_isEndpoint (e : Entity) :
    (if e.isEndpoint = true then e.endpoint? else none) = e.endpoint? := by
  obtain ⟨info, body⟩ := e
  cases body <;> rfl

end Entity

namespace Tree

variable {t : Tree} {id k : Nat}

def address? (t : Tree) (id : Nat) : Option EndpointId :=
  (t.get? id).bind Entity.endpoint?

theorem mem_endpoints (h : t.Sound) : id ∈ t.endpoints ↔ (t.address? id).isSome = true := by
  rw [endpoints, List.mem_filter, h.mem_walk, address?]
  cases found : t.get? id with
  | none => simp
  | some e => simp [Entity.isSome_endpoint?, lt_size_of_get? found]

theorem mem_endpoints_iff (h : t.Sound) :
    id ∈ t.endpoints ↔ ∃ e, t.get? id = some e ∧ e.isEndpoint = true := by
  rw [mem_endpoints h, address?]
  cases t.get? id with
  | none => simp
  | some e => simp [Entity.isSome_endpoint?]

theorem nodup_endpoints (h : t.Sound) : t.endpoints.Nodup :=
  h.nodup_walk.filter _

theorem map_some_addresses (h : t.Sound) :
    (t.endpoints.filterMap t.address?).map some = t.endpoints.map t.address? := by
  have all : ∀ id ∈ t.endpoints, ∃ a, t.address? id = some a := fun id inside =>
    Option.isSome_iff_exists.mp ((mem_endpoints h).mp inside)
  exact (map_eq_map_of_forall₂ (forall₂_filterMap all) fun _ _ same => same).symm

theorem pathNames_endpoint (h : t.Sound) (inside : id ∈ t.endpoints) :
    ∃ e names, t.get? id = some e ∧ t.pathNames id = names ++ [e.name] := by
  obtain ⟨e, found, endpoint⟩ := (mem_endpoints_iff h).mp inside
  have other : id ≠ rootId := by
    rintro rfl
    obtain ⟨root, there, node⟩ := h.root.1
    obtain rfl := Option.some.inj (found.symm.trans there)
    simp [Entity.isEndpoint, node] at endpoint
  obtain ⟨p, parent, -, -⟩ := h.rooted id (lt_size_of_get? found) other
  refine ⟨e, t.pathNames p, found, ?_⟩
  rw [h.pathNames_child parent, nameOf_of_get? found]

/-! The names of enumerators. -/

theorem map_name_optionEnumerators (stem : String) (options : Options) :
    (optionEnumerators stem options).map (·.name) =
      (options.names.take Options.capacity).map (enumeratorName stem) := by
  rw [← Options.map_name_values, optionEnumerators, List.map_map, List.map_map]
  rfl

theorem map_name_flags (stem : String) (names : List String) :
    (names.mapIdx fun i flag => Enumerator.mk (enumeratorName stem flag) (.bit i)).map (·.name) =
      names.map (enumeratorName stem) := by
  refine List.ext_getElem? fun i => ?_
  simp only [List.getElem?_map, List.getElem?_mapIdx, Option.map_map]
  rfl

/-! Addresses in the order of the walk. -/

/-- The endpoints have the addresses 1, 2, 3 and so on in the order of the walk. -/
structure Dense (t : Tree) : Prop where
  few : t.endpoints.length ≤ 65535
  listed : t.endpoints.map (fun id => (t.address? id).map UInt16.toNat) =
    (List.range' 1 t.endpoints.length).map some

private theorem filterMap_address?_range (t : Tree) :
    (List.range t.size).filterMap t.address? = t.ledger.filterMap Entity.endpoint? := by
  have places := filterMap_range_getElem? Entity.endpoint? t.ledger
  rw [length_ledger] at places
  rw [← places]
  refine List.filterMap_congr fun id _ => ?_
  rw [address?, getElem?_ledger]
  cases t.get? id with
  | none => rfl
  | some e => exact (Entity.endpoint?_bare e).symm

theorem map_address?_endpoints (h : t.Sound) (order : t.Preordered) :
    t.endpoints.map t.address? = (t.ledger.filterMap Entity.endpoint?).map some := by
  have all : ∀ id ∈ t.endpoints, ∃ address, t.address? id = some address := fun id inside =>
    Option.isSome_iff_exists.mp ((mem_endpoints h).mp inside)
  have kept : t.endpoints.filterMap t.address? = (List.range t.size).filterMap t.address? := by
    rw [endpoints, h.walk_eq_range order, List.filterMap_filter]
    refine List.filterMap_congr fun id _ => ?_
    rw [address?]
    cases t.get? id with
    | none => rfl
    | some e => simp only [Option.bind_some, Entity.ite_isEndpoint]
  rw [← filterMap_address?_range, ← kept]
  exact map_eq_map_of_forall₂ (forall₂_filterMap all) fun _ _ same => same

theorem Dense.getElem?_endpoints_iff (dense : t.Dense) (h : t.Sound) :
    t.endpoints[k]? = some id ↔ (t.address? id).map UInt16.toNat = some (k + 1) := by
  have forward (j id : Nat) (found : t.endpoints[j]? = some id) :
      (t.address? id).map UInt16.toNat = some (j + 1) := by
    have inside := (List.getElem?_eq_some_iff.mp found).1
    have listed := congrArg (·[j]?) dense.listed
    simp only [List.getElem?_map, found, Option.map_some, List.getElem?_range' inside] at listed
    rw [Option.some.inj listed, Nat.one_mul, Nat.add_comm]
  refine ⟨forward k id, fun same => ?_⟩
  obtain ⟨address, found, -⟩ := Option.map_eq_some_iff.mp same
  have member : id ∈ t.endpoints := (mem_endpoints h).mpr (by rw [found]; rfl)
  obtain ⟨j, stored⟩ := List.mem_iff_getElem?.mp member
  have place := Option.some.inj ((forward j id stored).symm.trans same)
  rw [← Nat.succ.inj place, stored]

theorem Dense.exists_place (dense : t.Dense) (h : t.Sound) {address : EndpointId}
    (found : t.address? id = some address) :
    ∃ k, address.toNat = k + 1 ∧ t.endpoints[k]? = some id := by
  have member : id ∈ t.endpoints := (mem_endpoints h).mpr (by rw [found]; rfl)
  obtain ⟨k, stored⟩ := List.mem_iff_getElem?.mp member
  have number := (dense.getElem?_endpoints_iff h).mp stored
  rw [found, Option.map_some] at number
  exact ⟨k, Option.some.inj number, stored⟩

end Tree

end DeviceLink
