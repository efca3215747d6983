import HapRust.Controller.Calls

/-! Records are kept under their exact identifiers and looked up without regard to
case. A call with the identifier of a record works on the first record whose
identifier differs from it at most in case. -/

namespace HapRust.Controller
open Lib Crypto Pairing Ble

inductive StoreEdit where
  | save (a : StoredAccessory)
  | delete (id : String)

def StoreEdit.apply (s : Store) : StoreEdit → Store
  | save a => s.savePairing a
  | delete id => s.deletePairing id

def storeAfter (edits : List StoreEdit) : List StoredAccessory :=
  (runs StoreEdit.apply .empty edits).accessories.values

theorem eqIgnoreAsciiCase_self (s : String) : eqIgnoreAsciiCase s s = true := beq_self_eq_true _

section
variable {before after : List StoredAccessory} {r : StoredAccessory}

theorem findStored_of_first (h : ∀ a ∈ before, eqIgnoreAsciiCase a.id r.id = false) :
    findStored (before ++ r :: after) r.id = .ok r := by
  have hnone : before.find? (eqIgnoreAsciiCase ·.id r.id) = none := by
    rw [List.find?_eq_none]
    intro a ha
    simp [h a ha]
  have hfind : (before ++ r :: after).find? (eqIgnoreAsciiCase ·.id r.id) = some r := by
    rw [List.find?_append, hnone, Option.none_or]
    exact List.find?_cons_of_pos (eqIgnoreAsciiCase_self r.id)
  rw [findStored, hfind]

theorem findStored_earlier {a : StoredAccessory} (ha : a ∈ before)
    (heq : eqIgnoreAsciiCase a.id r.id = true) :
    ∃ b ∈ before, findStored (before ++ r :: after) r.id = .ok b := by
  have hsome : (before.find? (eqIgnoreAsciiCase ·.id r.id)).isSome :=
    List.find?_isSome.mpr ⟨a, ha, heq⟩
  obtain ⟨b, hb⟩ := Option.isSome_iff_exists.mp hsome
  refine ⟨b, List.mem_of_find?_eq_some hb, ?_⟩
  rw [findStored, List.find?_append, hb, Option.some_or]

theorem not_mem_before (h : ((before ++ r :: after).map StoredAccessory.id).Nodup) :
    r ∉ before := by
  intro hr
  rw [List.map_append] at h
  refine (List.nodup_append.mp h).2.2 r.id (List.mem_map_of_mem hr) r.id ?_ rfl
  exact List.mem_map_of_mem (List.mem_cons_self ..)

theorem findStored_own_iff (h : ((before ++ r :: after).map StoredAccessory.id).Nodup) :
    findStored (before ++ r :: after) r.id = .ok r ↔
      ∀ a ∈ before, eqIgnoreAsciiCase a.id r.id = false := by
  constructor
  · intro hfound a ha
    cases heq : eqIgnoreAsciiCase a.id r.id with
    | false => rfl
    | true =>
      obtain ⟨b, hb, hfound'⟩ := findStored_earlier ha heq
      obtain rfl := Except.ok.inj (hfound.symm.trans hfound')
      exact absurd hb (not_mem_before h)
  · exact findStored_of_first

end

namespace HapController
variable (P : Primitives) (D : DbParsers) (c : HapController)

/-- The calls with this identifier work on this record, if the store has `all`. -/
structure ActsOn (all : List StoredAccessory) (id : String) (r : StoredAccessory) : Prop where
  found : findStored all id = .ok r
  connect : ∀ ephemeral x, x.pairings = .ok all →
    Dialogue.after (c.connect P D id ephemeral) [x] = some (c.connectStored P D r ephemeral)
  remove : ∀ ephemeral x, x.pairings = .ok all →
    (c.removePairing P D id ephemeral).after [x] = some (c.removeStored P D r ephemeral)
  forget : ∀ x, x.pairings = .ok all →
    (c.forgetPairing id).after [x] = some (c.forgetStored r)

variable {P D c}

theorem loadStored_after {all : List StoredAccessory} {id : String} {r : StoredAccessory}
    (h : findStored all id = .ok r) {x : ControllerAnswer} (hx : x.pairings = .ok all) :
    Dialogue.after (loadStored id) [x] = some (.ret (.ok r)) := by
  change some (Dialogue.ret (mapErr CallError.hap (mapErr .pairing x.pairings >>= fun all =>
    findStored all id))) = _
  rw [hx, mapErr_ok, ok_bind, h, mapErr_ok]

theorem actsOn_of_found {all : List StoredAccessory} {id : String} {r : StoredAccessory}
    (h : findStored all id = .ok r) : ActsOn P D c all id r where
  found := h
  connect _ _ hx := Dialogue.after_bind (loadStored_after h hx) _
  remove _ _ hx := Dialogue.after_bind (loadStored_after h hx) _
  forget _ hx := Dialogue.after_bind (loadStored_after h hx) _

/-- Whatever was saved and deleted: calls with the identifier of a record in the store work on
that record if and only if no record before it has an identifier that differs in case only. -/
theorem acts_on_own_record_iff (P : Primitives) (D : DbParsers) (c : HapController)
    (edits : List StoreEdit) {before after : List StoredAccessory} {r : StoredAccessory}
    (h : storeAfter edits = before ++ r :: after) :
    ActsOn P D c (storeAfter edits) r.id r ↔
      ∀ a ∈ before, eqIgnoreAsciiCase a.id r.id = false := by
  have hnodup : ((storeAfter edits).map StoredAccessory.id).Nodup :=
    (runs StoreEdit.apply .empty edits).accessories.nodup
  rw [h] at hnodup ⊢
  rw [← findStored_own_iff hnodup]
  exact ⟨fun hacts => hacts.found, actsOn_of_found⟩

def kept (id : String) (key : UInt8) : StoredAccessory :=
  ⟨⟨id, constArr 32 key⟩, .ip lampAddr⟩

theorem acts_on_own_record_iff_two :
    storeAfter [.save (kept "lamp" 1), .save (kept "door" 2)] =
        [kept "lamp" 1] ++ kept "door" 2 :: [] ∧
      ActsOn plainPrimitives plainParsers (sampleController .empty)
        (storeAfter [.save (kept "lamp" 1), .save (kept "door" 2)]) "door" (kept "door" 2) := by
  refine ⟨?store, (acts_on_own_record_iff _ _ _ _ ?store).mpr ?_⟩
  case store => decide +kernel
  intro a ha
  obtain rfl := List.mem_singleton.mp ha
  decide +kernel

/-- Of two records whose identifiers differ in case, a call with the second one's identifier
finds the first. -/
theorem other_record_found :
    kept "LAMP" 2 ∈ storeAfter [.save (kept "lamp" 1), .save (kept "LAMP" 2)] ∧
      findStored (storeAfter [.save (kept "lamp" 1), .save (kept "LAMP" 2)]) "LAMP" =
        .ok (kept "lamp" 1) ∧
      ¬ ActsOn plainPrimitives plainParsers (sampleController .empty)
        (storeAfter [.save (kept "lamp" 1), .save (kept "LAMP" 2)]) "LAMP" (kept "LAMP" 2) := by
  have hfound : findStored (storeAfter [.save (kept "lamp" 1), .save (kept "LAMP" 2)]) "LAMP" =
      .ok (kept "lamp" 1) := by decide +kernel
  refine ⟨by decide +kernel, hfound, ?_⟩
  intro hacts
  have heq := Except.ok.inj (hfound.symm.trans hacts.found)
  exact absurd heq (by decide +kernel)

end HapController
end HapRust.Controller
