import HapRust.Transport.Http

/-! What the HTTP parser reads is decided by the bytes it takes up: nothing that
follows them changes the answer, and a refusal stays one. -/

namespace HapRust.Transport
open Lib

structure Local {α : Type} (g : Bytes → Except Fault (Option (α × Nat))) : Prop where
  complete : ∀ {buf a n}, g buf = .ok (some (a, n)) →
    ∃ front back, buf = front ++ back ∧ front.length = n ∧ ∀ x, g (front ++ x) = .ok (some (a, n))
  error : ∀ {buf f}, g buf = .error f → ∀ x, g (buf ++ x) = .error f

theorem findSubslice_eq_some {needle : Bytes} (hn : needle ≠ []) :
    ∀ {hay : Bytes} {i : Nat}, findSubslice needle hay = some i →
      ∃ before after, hay = before ++ needle ++ after ∧ before.length = i ∧
        ∀ x, findSubslice needle (before ++ needle ++ x) = some i := by
  intro hay
  induction hay with
  | nil =>
    intro i h
    cases h
  | cons b t ih =>
    intro i h
    rw [findSubslice] at h
    split_ifs at h with hpre
    · obtain rfl := Option.some.inj h
      obtain ⟨after, hafter⟩ := hpre
      refine ⟨[], after, hafter.symm, rfl, ?_⟩
      intro x
      rw [List.nil_append]
      cases needle with
      | nil => exact absurd rfl hn
      | cons c needle =>
        have hp : c :: needle <+: c :: (needle ++ x) := ⟨x, rfl⟩
        rw [List.cons_append, findSubslice, if_pos hp]
    · obtain ⟨j, hj, rfl⟩ := Option.map_eq_some_iff.mp h
      obtain ⟨before, after, rfl, rfl, hx⟩ := ih hj
      refine ⟨b :: before, after, rfl, rfl, ?_⟩
      intro x
      have hnot : ¬ needle <+: b :: (before ++ needle ++ x) := by
        intro hp
        have hshort : needle <+: b :: (before ++ needle) := by
          refine List.prefix_of_prefix_length_le hp ⟨x, rfl⟩ ?_
          rw [List.length_cons, List.length_append]
          omega
        exact hpre (hshort.trans ⟨after, rfl⟩)
      rw [List.cons_append, List.cons_append, findSubslice, if_neg hnot, hx x]
      rfl

theorem chunkSize_lt {line : Bytes} {size : Nat} (h : chunkSize line = .ok size) :
    size < 2 ^ 64 := by
  obtain ⟨s, -, h⟩ := bind_eq_ok.mp h
  exact fromStrRadix_lt (okOr_eq_ok.mp h)

section
variable {checks : Bool}

theorem usizeAdd_of_lt {a b : Nat} (h : a + b < 2 ^ 64) : usizeAdd checks a b = .ok (a + b) :=
  if_pos h

theorem slice_inRange {start size dataEnd chunkEnd len : Nat} (hsize : size < 2 ^ 64)
    (hdata : usizeAdd checks start size = .ok dataEnd)
    (hchunk : usizeAdd checks dataEnd 2 = .ok chunkEnd) (hlen : chunkEnd ≤ len) :
    (start ≤ dataEnd ∧ dataEnd ≤ len ∧ dataEnd < 2 ^ 63) ↔ start + size < 2 ^ 63 := by
  unfold usizeAdd at hdata hchunk
  split_ifs at hdata hchunk <;> simp only [Except.ok.injEq] at hdata hchunk <;> omega

theorem dataChunk_eq {size : Nat} (hsize : size < 2 ^ 64) (front after : Bytes) :
    dataChunk checks (front ++ after) front.length size = (do
      let dataEnd ← usizeAdd checks front.length size
      let chunkEnd ← usizeAdd checks dataEnd 2
      if front.length + after.length < chunkEnd then return none
      else if front.length + size < 2 ^ 63 then
        return some (.data (after.take size), front.length + size + 2)
      else throw .panic) := by
  rw [dataChunk, List.length_append]
  rcases hdata : usizeAdd checks front.length size with f | dataEnd
  · rfl
  simp only [ok_bind]
  rcases hchunk : usizeAdd checks dataEnd 2 with f | chunkEnd
  · rfl
  simp only [ok_bind]
  by_cases hshort : front.length + after.length < chunkEnd
  · rw [if_pos hshort, if_pos hshort]
  have hrange := slice_inRange hsize hdata hchunk (Nat.le_of_not_lt hshort)
  rw [if_neg hshort, if_neg hshort, slice, List.length_append]
  by_cases hin : front.length + size < 2 ^ 63
  · rw [usizeAdd_of_lt (by omega)] at hdata
    obtain rfl := Except.ok.inj hdata
    rw [usizeAdd_of_lt (by omega)] at hchunk
    obtain rfl := Except.ok.inj hchunk
    rw [if_pos hin, if_pos (hrange.mpr hin), List.take_length_add_append, List.drop_left]
    rfl
  · rw [if_neg hin, if_neg (mt hrange.mp hin)]
    rfl

theorem dataChunk_complete {size n : Nat} (hsize : size < 2 ^ 64) {front after : Bytes} {c : Chunk}
    (h : dataChunk checks (front ++ after) front.length size = .ok (some (c, n))) :
    ∃ data back, after = data ++ back ∧ n = (front ++ data).length ∧ front.length + 2 ≤ n ∧
      ∀ x, dataChunk checks (front ++ (data ++ x)) front.length size = .ok (some (c, n)) := by
  rw [dataChunk_eq hsize] at h
  obtain ⟨dataEnd, hdata, hrest⟩ := bind_eq_ok.mp h
  obtain ⟨chunkEnd, hchunk, hres⟩ := bind_eq_ok.mp hrest
  split_ifs at hres with hshort hin
  · cases hres
  · rw [usizeAdd_of_lt (by omega)] at hdata
    obtain rfl := Except.ok.inj hdata
    rw [usizeAdd_of_lt (by omega)] at hchunk
    obtain rfl := Except.ok.inj hchunk
    obtain ⟨rfl, rfl⟩ := Prod.mk.inj (Option.some.inj (Except.ok.inj hres))
    have htake : (after.take (size + 2)).length = size + 2 := List.length_take_of_le (by omega)
    refine ⟨after.take (size + 2), after.drop (size + 2), (List.take_append_drop _ _).symm,
      ?_, ?_, ?_⟩
    · rw [List.length_append, htake, Nat.add_assoc]
    · omega
    · intro x
      have hdata : (after.take (size + 2) ++ x).take size = after.take size := by
        rw [List.take_append_of_le_length (by omega), List.take_take, Nat.min_eq_left (by omega)]
      rw [dataChunk_eq hsize, usizeAdd_of_lt (by omega), ok_bind, usizeAdd_of_lt (by omega),
        ok_bind, if_neg (by rw [List.length_append, htake]; omega), if_pos hin, hdata]
      rfl

theorem dataChunk_error {size : Nat} (hsize : size < 2 ^ 64) {front after : Bytes} {f : Fault}
    (h : dataChunk checks (front ++ after) front.length size = .error f) (x : Bytes) :
    dataChunk checks (front ++ (after ++ x)) front.length size = .error f := by
  rw [dataChunk_eq hsize] at h ⊢
  rcases hdata : usizeAdd checks front.length size with f' | dataEnd
  · rw [hdata] at h
    exact h
  rw [hdata, ok_bind] at h
  rw [ok_bind]
  rcases hchunk : usizeAdd checks dataEnd 2 with f' | chunkEnd
  · rw [hchunk] at h
    exact h
  rw [hchunk, ok_bind] at h
  rw [ok_bind]
  split_ifs at h with hshort hin
  · cases h
  · cases h
  · rw [if_neg (by rw [List.length_append]; omega), if_neg hin]
    exact h

theorem nextChunk_line {line : Bytes}
    (hfind : ∀ x, findSubslice crlf (line ++ crlf ++ x) = some line.length) (after : Bytes) :
    nextChunk checks (line ++ crlf ++ after) = (do
      let size ← chunkSize line
      if size = 0 then
        if after.length < 2 then return none else return some (.last, (line ++ crlf).length + 2)
      else dataChunk checks (line ++ crlf ++ after) (line ++ crlf).length size) := by
  have hline : (line ++ crlf ++ after).take line.length = line := by
    rw [List.append_assoc, List.take_left]
  have hfront : (line ++ crlf).length = line.length + 2 := List.length_append
  have hshort : (line ++ crlf ++ after).length < (line ++ crlf).length + 2 ↔ after.length < 2 := by
    rw [List.length_append, Nat.add_lt_add_iff_left]
  rw [nextChunk, hfind after]
  simp only [hline, ← hfront, hshort]

theorem exists_line_of_nextChunk {rest : Bytes} (h : nextChunk checks rest ≠ .ok none) :
    ∃ line after, rest = line ++ crlf ++ after ∧
      ∀ x, findSubslice crlf (line ++ crlf ++ x) = some line.length := by
  cases hf : findSubslice crlf rest with
  | none =>
    rw [nextChunk, hf] at h
    exact absurd rfl h
  | some nl =>
    obtain ⟨line, after, hrest, rfl, hfind⟩ := findSubslice_eq_some (by decide) hf
    exact ⟨line, after, hrest, hfind⟩

theorem nextChunk_complete {rest : Bytes} {c : Chunk} {n : Nat}
    (h : nextChunk checks rest = .ok (some (c, n))) :
    ∃ front back, rest = front ++ back ∧ front.length = n ∧ 0 < n ∧
      ∀ x, nextChunk checks (front ++ x) = .ok (some (c, n)) := by
  obtain ⟨line, after, rfl, hfind⟩ := exists_line_of_nextChunk (by rw [h]; simp)
  rw [nextChunk_line hfind] at h
  obtain ⟨size, hsize, hres⟩ := bind_eq_ok.mp h
  split_ifs at hres with hzero hshort
  · cases hres
  · obtain ⟨rfl, rfl⟩ := Prod.mk.inj (Option.some.inj (Except.ok.inj hres))
    have htake : (after.take 2).length = 2 := List.length_take_of_le (Nat.le_of_not_lt hshort)
    refine ⟨line ++ crlf ++ after.take 2, after.drop 2, ?_, ?_, by omega, ?_⟩
    · rw [List.append_assoc _ (after.take 2), List.take_append_drop]
    · rw [List.length_append, htake]
    · intro x
      rw [List.append_assoc _ _ x, nextChunk_line hfind, hsize, ok_bind, if_pos hzero,
        if_neg (by rw [List.length_append, htake]; omega)]
      rfl
  · obtain ⟨data, back, rfl, hn, hpos, hx⟩ := dataChunk_complete (chunkSize_lt hsize) hres
    refine ⟨line ++ crlf ++ data, back, (List.append_assoc _ _ _).symm, hn.symm, by omega, ?_⟩
    intro x
    rw [List.append_assoc _ _ x, nextChunk_line hfind, hsize, ok_bind, if_neg hzero]
    exact hx x

theorem nextChunk_error {rest : Bytes} {f : Fault} (h : nextChunk checks rest = .error f)
    (x : Bytes) : nextChunk checks (rest ++ x) = .error f := by
  obtain ⟨line, after, rfl, hfind⟩ := exists_line_of_nextChunk (by rw [h]; simp)
  rw [nextChunk_line hfind] at h
  rw [List.append_assoc _ _ x, nextChunk_line hfind]
  rcases hsize : chunkSize line with f' | size
  · rw [hsize] at h
    exact h
  · rw [hsize, ok_bind] at h
    rw [ok_bind]
    split_ifs at h with hzero hshort
    · cases h
    · cases h
    · rw [if_neg hzero]
      exact dataChunk_error (chunkSize_lt hsize) h x

theorem decodeChunkedLoop_complete :
    ∀ (fuel : Nat) {rest body body' : Bytes} {consumed consumed' : Nat},
      decodeChunkedLoop checks fuel rest body consumed = .ok (some (body', consumed')) →
      ∃ front back, rest = front ++ back ∧ consumed' = consumed + front.length ∧
        ∀ x fuel', (front ++ x).length < fuel' →
          decodeChunkedLoop checks fuel' (front ++ x) body consumed =
            .ok (some (body', consumed')) := by
  intro fuel
  induction fuel with
  | zero =>
    intro rest body body' consumed consumed' h
    cases h
  | succ fuel ih =>
    intro rest body body' consumed consumed' h
    obtain ⟨c, hc, hres⟩ := bind_eq_ok.mp h
    rcases c with - | ⟨c, n⟩
    · cases hres
    obtain ⟨front, back, rfl, rfl, hpos, hx⟩ := nextChunk_complete hc
    cases c with
    | last =>
      obtain ⟨rfl, rfl⟩ := Prod.mk.inj (Option.some.inj (Except.ok.inj hres))
      refine ⟨front, back, rfl, rfl, ?_⟩
      intro x fuel' hfuel
      obtain ⟨k, rfl⟩ : ∃ k, fuel' = k + 1 := ⟨fuel' - 1, by omega⟩
      rw [decodeChunkedLoop, hx x]
      rfl
    | data data =>
      simp only [List.drop_left] at hres
      obtain ⟨front', back', rfl, rfl, hx'⟩ := ih hres
      refine ⟨front ++ front', back', (List.append_assoc _ _ _).symm, ?_, ?_⟩
      · rw [List.length_append, Nat.add_assoc]
      intro x fuel' hfuel
      obtain ⟨k, rfl⟩ : ∃ k, fuel' = k + 1 := ⟨fuel' - 1, by omega⟩
      rw [List.append_assoc] at hfuel ⊢
      rw [decodeChunkedLoop, hx (front' ++ x), ok_bind]
      simp only [List.drop_left]
      apply hx'
      rw [List.length_append] at hfuel
      omega

theorem decodeChunkedLoop_error :
    ∀ (fuel : Nat) {rest body : Bytes} {consumed : Nat} {f : Fault},
      decodeChunkedLoop checks fuel rest body consumed = .error f →
      ∀ x fuel', (rest ++ x).length < fuel' →
        decodeChunkedLoop checks fuel' (rest ++ x) body consumed = .error f := by
  intro fuel
  induction fuel with
  | zero =>
    intro rest body consumed f h
    cases h
  | succ fuel ih =>
    intro rest body consumed f h x fuel' hfuel
    obtain ⟨k, rfl⟩ : ∃ k, fuel' = k + 1 := ⟨fuel' - 1, by omega⟩
    rw [decodeChunkedLoop] at h ⊢
    rcases hc : nextChunk checks rest with f' | c
    · rw [hc] at h
      rw [nextChunk_error hc x]
      exact h
    rw [hc, ok_bind] at h
    rcases c with - | ⟨c, n⟩
    · cases h
    obtain ⟨front, back, rfl, rfl, hpos, hx⟩ := nextChunk_complete hc
    rw [List.append_assoc] at hfuel ⊢
    rw [hx (back ++ x), ok_bind]
    cases c with
    | last => cases h
    | data data =>
      simp only [List.drop_left] at h ⊢
      apply ih h
      rw [List.length_append] at hfuel
      omega

theorem decodeChunked_local : Local (decodeChunked checks) where
  complete {buf a n} h := by
    obtain ⟨front, back, rfl, rfl, hx⟩ := decodeChunkedLoop_complete _ h
    refine ⟨front, back, rfl, (Nat.zero_add _).symm, ?_⟩
    intro x
    exact hx x _ (Nat.lt_succ_self _)
  error {buf f} h x := decodeChunkedLoop_error _ h x _ (Nat.lt_succ_self _)

theorem parseBody_local (h : Headers) : Local (parseBody checks h) := by
  unfold parseBody
  split_ifs with hchunked
  · exact decodeChunked_local
  · refine ⟨?_, ?_⟩
    · intro buf a n hres
      dsimp only at hres
      split_ifs at hres with hshort
      · cases hres
      obtain ⟨rfl, rfl⟩ := Prod.mk.inj (Option.some.inj (Except.ok.inj hres))
      have htake := List.length_take_of_le (Nat.le_of_not_lt hshort)
      refine ⟨_, _, (List.take_append_drop _ buf).symm, htake, ?_⟩
      intro x
      dsimp only
      rw [if_neg (by rw [List.length_append, htake]; omega), List.take_left' htake]
    · intro buf f hres
      dsimp only at hres
      split_ifs at hres

theorem splitCrlf_isPrefix {block line : Bytes} {lines : List Bytes}
    (h : splitCrlf block = line :: lines) : line <+: block := by
  obtain ⟨l, ls, hsplit, rfl, -⟩ := List.map_eq_cons_iff.mp h
  have hl : l <+: block := by
    have hjoin : [10].intercalate (block.splitOn 10) = block := List.intercalate_splitOn 10
    rw [hsplit] at hjoin
    rw [← hjoin]
    cases ls <;> simp [List.intercalate]
  refine List.IsPrefix.trans ?_ hl
  split_ifs
  · exact List.dropLast_prefix l
  · exact List.prefix_refl l

theorem parseHead_isPrefix {head expected : Bytes} {r : UInt16 × Headers}
    (h : parseHead head expected = .ok r) : expected <+: head := by
  unfold parseHead at h
  split at h
  · cases h
  · next startLine lines hsplit =>
    obtain ⟨_, hstart, _⟩ := bind_eq_ok.mp h
    exact (ensure_eq_ok.mp hstart).trans (splitCrlf_isPrefix hsplit)

theorem parseMessage_head {head : Bytes} (expected : Bytes)
    (hfind : ∀ x, findSubslice (crlf ++ crlf) (head ++ (crlf ++ crlf) ++ x) = some head.length)
    (rest : Bytes) :
    parseMessage checks (head ++ (crlf ++ crlf) ++ rest) expected = (do
      let h ← parseHead head expected
      let body ← parseBody checks h.2 rest
      return .ofBody h.1 h.2 (head ++ (crlf ++ crlf)).length body) := by
  have hhead : (head ++ (crlf ++ crlf) ++ rest).take head.length = head := by
    rw [List.append_assoc, List.take_left]
  have hfront : (head ++ (crlf ++ crlf)).length = head.length + 4 := List.length_append
  rw [parseMessage, hfind rest]
  simp only [hhead, ← hfront, List.drop_left]

theorem exists_head_of_parseMessage {buf expected : Bytes}
    (h : parseMessage checks buf expected ≠ .ok .incomplete) :
    ∃ head rest, buf = head ++ (crlf ++ crlf) ++ rest ∧
      ∀ x, findSubslice (crlf ++ crlf) (head ++ (crlf ++ crlf) ++ x) = some head.length := by
  cases hf : findSubslice (crlf ++ crlf) buf with
  | none =>
    rw [parseMessage, hf] at h
    exact absurd rfl h
  | some headersEnd =>
    obtain ⟨head, rest, hbuf, rfl, hfind⟩ := findSubslice_eq_some (by decide) hf
    exact ⟨head, rest, hbuf, hfind⟩

theorem parseMessage_complete {buf expected : Bytes} {r : HapResponse} {n : Nat}
    (h : parseMessage checks buf expected = .ok (.complete r n)) :
    ∃ front back, buf = front ++ back ∧ front.length = n ∧ 0 < n ∧ expected <+: front ∧
      ∀ x, parseMessage checks (front ++ x) expected = .ok (.complete r n) := by
  obtain ⟨head, rest, rfl, hfind⟩ := exists_head_of_parseMessage (by rw [h]; simp)
  rw [parseMessage_head expected hfind] at h
  obtain ⟨⟨status, hs⟩, hhead, hafter⟩ := bind_eq_ok.mp h
  dsimp only at hafter
  obtain ⟨b, hbody, hres⟩ := bind_eq_ok.mp hafter
  rcases b with - | ⟨body, bodyLen⟩
  · cases hres
  obtain ⟨rfl, rfl⟩ := ParseOutcome.complete.inj (Except.ok.inj hres)
  obtain ⟨front, back, rfl, rfl, hx⟩ := (parseBody_local hs).complete hbody
  refine ⟨head ++ (crlf ++ crlf) ++ front, back, (List.append_assoc _ _ _).symm,
    List.length_append, ?_, ?_, ?_⟩
  · rw [List.length_append]
    exact Nat.add_pos_left (Nat.add_pos_right _ (by decide)) _
  · rw [List.append_assoc]
    exact (parseHead_isPrefix hhead).trans (List.prefix_append _ _)
  · intro x
    rw [List.append_assoc _ front x, parseMessage_head expected hfind, hhead, ok_bind]
    simp only [hx x, ok_bind]
    rfl

theorem parseMessage_error {buf expected : Bytes} {f : Fault}
    (h : parseMessage checks buf expected = .error f) (x : Bytes) :
    parseMessage checks (buf ++ x) expected = .error f := by
  obtain ⟨head, rest, rfl, hfind⟩ := exists_head_of_parseMessage (by rw [h]; simp)
  rw [parseMessage_head expected hfind] at h
  rw [List.append_assoc _ rest x, parseMessage_head expected hfind]
  rcases hhead : parseHead head expected with f' | ⟨status, hs⟩
  · rw [hhead] at h
    exact h
  rw [hhead, ok_bind] at h
  rw [ok_bind]
  dsimp only at h ⊢
  rcases hbody : parseBody checks hs rest with f' | b
  · rw [hbody] at h
    rw [(parseBody_local hs).error hbody x]
    exact h
  · rw [hbody, ok_bind] at h
    rcases b with - | ⟨body, bodyLen⟩ <;> cases h

end
end HapRust.Transport
