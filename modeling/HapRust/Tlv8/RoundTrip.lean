import HapRust.Tlv8.Reader

/-! Writing a list of logical items and parsing the bytes gives the list back.
The reader's open run is the invariant: it is closed at every item boundary,
because a run that ends on a full fragment carries its own terminator. -/

namespace HapRust.Tlv8
open Lib Tlv8Writer

inductive LogicalItem where
  | value (ty : UInt8) (v : Bytes) (h : ty ≠ separator)
  | separator

namespace LogicalItem

def push (out : Bytes) : LogicalItem → Bytes
  | .value ty v _ => Tlv8Writer.push out ty v
  | .separator => pushSeparator out

def toItem : LogicalItem → Item
  | .value ty v _ => (ty, v)
  | .separator => (Tlv8.separator, [])

def bytes : LogicalItem → Bytes
  | .value ty v _ => run ty v
  | .separator => fragment Tlv8.separator []

theorem push_eq (out : Bytes) (i : LogicalItem) : i.push out = out ++ i.bytes := by
  cases i with
  | value ty v h => exact Tlv8Writer.push_eq out ty v
  | separator => rfl

end LogicalItem

def writeItems (items : List LogicalItem) : Bytes := items.foldl LogicalItem.push []

namespace Tlv8Reader

def State.Closed (s : State) : Prop := ∀ ty, s.openRun ≠ some (ty, true)

theorem absorb_new {s : State} {ty : UInt8} (value : Bytes) (hty : ty ≠ separator)
    (hopen : s.openRun ≠ some (ty, true)) :
    absorb s ty value = ⟨s.items ++ [(ty, value)], some (ty, value.length = 255)⟩ := by
  simp only [absorb, hty, hopen, if_false]

theorem absorb_continue (items : List Item) {ty : UInt8} (v value : Bytes)
    (hty : ty ≠ separator) :
    absorb ⟨items ++ [(ty, v)], some (ty, true)⟩ ty value =
      ⟨items ++ [(ty, v ++ value)], some (ty, value.length = 255)⟩ := by
  simp only [absorb, hty, if_false, if_true, extendLast_concat]

theorem parseFrom_run_continue {ty : UInt8} (hty : ty ≠ separator) (value rest v : Bytes)
    (items : List Item) :
    parseFrom (run ty value ++ rest) ⟨items ++ [(ty, v)], some (ty, true)⟩ =
      parseFrom rest ⟨items ++ [(ty, v ++ value)], some (ty, false)⟩ := by
  induction value using chunks_induction (n := 255) (by decide) generalizing v with
  | nil =>
    rw [run_short (by decide), parseFrom_fragment _ _ _ (by decide), absorb_continue _ _ _ hty]
    simp
  | step value _ ih =>
    by_cases hlt : value.length < 255
    · have h255 : ¬ value.length = 255 := by omega
      rw [run_short hlt, parseFrom_fragment _ _ _ (by omega), absorb_continue _ _ _ hty]
      simp only [h255, decide_false]
    · have htake : (value.take 255).length = 255 := by simp only [List.length_take]; omega
      rw [run_long (by omega), List.append_assoc, parseFrom_fragment _ _ _ (by omega),
        absorb_continue _ _ _ hty, htake, decide_eq_true rfl, ih, List.append_assoc,
        List.take_append_drop]

theorem parseFrom_run {ty : UInt8} (hty : ty ≠ separator) (value rest : Bytes) (s : State)
    (hs : s.Closed) :
    parseFrom (run ty value ++ rest) s =
      parseFrom rest ⟨s.items ++ [(ty, value)], some (ty, false)⟩ := by
  by_cases hlt : value.length < 255
  · have h255 : ¬ value.length = 255 := by omega
    rw [run_short hlt, parseFrom_fragment _ _ _ (by omega), absorb_new _ hty (hs ty)]
    simp only [h255, decide_false]
  · have htake : (value.take 255).length = 255 := by simp only [List.length_take]; omega
    rw [run_long (by omega), List.append_assoc, parseFrom_fragment _ _ _ (by omega),
      absorb_new _ hty (hs ty), htake, decide_eq_true rfl, parseFrom_run_continue hty,
      List.take_append_drop]

theorem parseFrom_item (i : LogicalItem) (rest : Bytes) (s : State) (hs : s.Closed) :
    ∃ s' : State, s'.Closed ∧ s'.items = s.items ++ [i.toItem] ∧
      parseFrom (i.bytes ++ rest) s = parseFrom rest s' := by
  cases i with
  | value ty v h =>
    exact ⟨⟨s.items ++ [(ty, v)], some (ty, false)⟩, by simp [State.Closed], rfl,
      parseFrom_run h v rest s hs⟩
  | separator =>
    refine ⟨⟨s.items ++ [(separator, [])], none⟩, by simp [State.Closed], rfl, ?_⟩
    rw [LogicalItem.bytes, parseFrom_fragment _ _ _ (by decide)]
    rfl

theorem parseFrom_items (items : List LogicalItem) (s : State) (hs : s.Closed) :
    parseFrom (items.flatMap LogicalItem.bytes) s =
      .ok (s.items ++ items.map LogicalItem.toItem) := by
  induction items generalizing s with
  | nil =>
    rw [List.flatMap_nil, List.map_nil, List.append_nil]
    rfl
  | cons i items ih =>
    obtain ⟨s', hclosed, hitems, hparse⟩ :=
      parseFrom_item i (items.flatMap LogicalItem.bytes) s hs
    rw [List.flatMap_cons, hparse, ih s' hclosed, hitems, List.map_cons, List.append_assoc]
    rfl

end Tlv8Reader

theorem foldl_push_eq (items : List LogicalItem) (out : Bytes) :
    items.foldl LogicalItem.push out = out ++ items.flatMap LogicalItem.bytes := by
  induction items generalizing out with
  | nil => simp
  | cons i items ih =>
    rw [List.foldl_cons, ih, LogicalItem.push_eq, List.flatMap_cons, List.append_assoc]

/-- What is written is what is read: same items, same order, none merged or split. -/
theorem parse_writeItems (items : List LogicalItem) :
    Tlv8Reader.parse (writeItems items) = .ok (items.map LogicalItem.toItem) := by
  rw [writeItems, foldl_push_eq, List.nil_append, Tlv8Reader.parse,
    Tlv8Reader.parseFrom_items items _ (by simp [Tlv8Reader.State.Closed])]
  rfl

example : Tlv8Reader.parse (writeItems [.value 9 [1] (by decide), .value 9 [] (by decide),
    .separator, .value 9 [2, 3] (by decide)]) =
    .ok [(9, [1]), (9, []), (0xFF, []), (9, [2, 3])] := by decide

def writeTlv (items : List Item) : Bytes :=
  items.foldl (fun out i => Tlv8Writer.push out i.1 i.2) []

theorem push_nil (ty : UInt8) (v : Bytes) : Tlv8Writer.push [] ty v = writeTlv [(ty, v)] := rfl

theorem push_writeTlv (items : List Item) (ty : UInt8) (v : Bytes) :
    Tlv8Writer.push (writeTlv items) ty v = writeTlv (items ++ [(ty, v)]) := by
  simp only [writeTlv, List.foldl_append, List.foldl_cons, List.foldl_nil]

theorem exists_logicalItems {items : List Item} (h : ∀ i ∈ items, i.1 = separator → i.2 = []) :
    ∃ logical : List LogicalItem, logical.map LogicalItem.toItem = items := by
  induction items with
  | nil => exact ⟨[], rfl⟩
  | cons i items ih =>
    obtain ⟨logical, rfl⟩ := ih fun j hj => h j (List.mem_cons_of_mem _ hj)
    by_cases hsep : i.1 = separator
    · have hempty : i.2 = [] := h i List.mem_cons_self hsep
      refine ⟨.separator :: logical, ?_⟩
      rw [List.map_cons, LogicalItem.toItem, ← hsep, ← hempty]
    · exact ⟨.value i.1 i.2 hsep :: logical, rfl⟩

theorem writeTlv_toItem (logical : List LogicalItem) :
    writeTlv (logical.map LogicalItem.toItem) = writeItems logical := by
  unfold writeTlv writeItems
  rw [List.foldl_map]
  congr 1
  funext out i
  cases i <;> rfl

theorem Tlv8Reader.parse_writeTlv {items : List Item}
    (h : ∀ i ∈ items, i.1 = separator → i.2 = []) :
    Tlv8Reader.parse (writeTlv items) = .ok items := by
  obtain ⟨logical, rfl⟩ := exists_logicalItems h
  rw [writeTlv_toItem, parse_writeItems]

theorem Tlv8Map.parse_writeTlv {items : List Item}
    (h : items.any (fun i => i.1 == separator) = false) :
    Tlv8Map.parse (writeTlv items) = .ok ⟨items⟩ := by
  have hne : ∀ i ∈ items, i.1 ≠ separator := by simpa using h
  exact Tlv8Map.parse_eq_ok (Tlv8Reader.parse_writeTlv fun i hi hsep => absurd hsep (hne i hi))

end HapRust.Tlv8
