import Mathlib.Tactic.Common

/-! Incremental decoders: a step function that takes one item off the front of
a buffer, asks for more, or fails; the loop that drains a buffer; and the
reader that drains after every arrival. For a stable step function the reader's
result is that of one drain of the whole stream, however the stream is cut. -/

namespace HapRust.Lib

inductive Next (σ ε α β : Type) where
  | item (a : α) (s : σ) (rest : List β)
  | more
  | fail (e : ε)

structure Decoder (σ ε α β : Type) where
  next : σ → List β → Next σ ε α β
  shrinks : ∀ {s buf a s' rest}, next s buf = .item a s' rest → rest.length < buf.length

@[ext] structure Drained (σ ε α β : Type) where
  items : List α
  state : σ
  rest : List β
  failed : Option ε

def Drained.result {σ ε α β : Type} (r : Drained σ ε α β) : Except ε (List α) :=
  match r.failed with
  | none => .ok r.items
  | some e => .error e

theorem Drained.failed_of_result {σ ε α β : Type} {r : Drained σ ε α β} {items : List α}
    (h : r.result = .ok items) : r.failed = none := by
  unfold Drained.result at h
  split at h
  · assumption
  · cases h

namespace Decoder
variable {σ ε α β : Type} (d : Decoder σ ε α β)

def drainFuel : Nat → σ → List β → Drained σ ε α β
  | 0, s, buf => ⟨[], s, buf, none⟩
  | n + 1, s, buf =>
    match d.next s buf with
    | .item a s' rest =>
      let r := drainFuel n s' rest
      ⟨a :: r.items, r.state, r.rest, r.failed⟩
    | .more => ⟨[], s, buf, none⟩
    | .fail e => ⟨[], s, buf, some e⟩

def drain (s : σ) (buf : List β) : Drained σ ε α β := d.drainFuel (buf.length + 1) s buf

theorem drainFuel_fuel : ∀ (m n : Nat) (s : σ) (buf : List β), buf.length < m → buf.length < n →
    d.drainFuel m s buf = d.drainFuel n s buf := by
  intro m
  induction m with
  | zero => intro n s buf hm; omega
  | succ m ih =>
    intro n s buf hm hn
    obtain ⟨n, rfl⟩ : ∃ k, n = k + 1 := ⟨n - 1, by omega⟩
    simp only [drainFuel]
    cases hnext : d.next s buf with
    | item a s' rest =>
      have hlt := d.shrinks hnext
      have hrest := ih n s' rest (by omega) (by omega)
      simp only [hrest]
    | more => rfl
    | fail e => rfl

variable {d} {s s' : σ} {buf rest : List β} {a : α} {e : ε}

theorem drain_item (h : d.next s buf = .item a s' rest) :
    d.drain s buf = ⟨a :: (d.drain s' rest).items, (d.drain s' rest).state, (d.drain s' rest).rest,
      (d.drain s' rest).failed⟩ := by
  have hlt := d.shrinks h
  have hfuel : d.drainFuel buf.length s' rest = d.drain s' rest :=
    d.drainFuel_fuel _ _ _ _ hlt (by omega)
  rw [drain, drainFuel, h]
  simp only [hfuel]

theorem drain_more (h : d.next s buf = .more) : d.drain s buf = ⟨[], s, buf, none⟩ := by
  rw [drain, drainFuel, h]

theorem drain_fail (h : d.next s buf = .fail e) : d.drain s buf = ⟨[], s, buf, some e⟩ := by
  rw [drain, drainFuel, h]

theorem result_item (h : d.next s buf = .item a s' rest) :
    (d.drain s buf).result = (d.drain s' rest).result.map (a :: ·) := by
  rw [drain_item h]
  unfold Drained.result
  dsimp only
  cases (d.drain s' rest).failed <;> rfl

theorem drain_flatMap {γ : Type} {enc : γ → List β} {item : γ → α} (hend : d.next s [] = .more)
    (xs : List γ) (hnext : ∀ x ∈ xs, ∀ rest, d.next s (enc x ++ rest) = .item (item x) s rest) :
    d.drain s (xs.flatMap enc) = ⟨xs.map item, s, [], none⟩ := by
  induction xs with
  | nil => exact drain_more hend
  | cons x xs ih =>
    have hxs := ih fun y hy => hnext y (List.mem_cons_of_mem x hy)
    rw [List.flatMap_cons, drain_item (hnext x (List.mem_cons_self ..) _), hxs, List.map_cons]

theorem drain_induction {Q : σ → List β → Prop}
    (item : ∀ s buf a s' rest, d.next s buf = .item a s' rest → Q s' rest → Q s buf)
    (more : ∀ s buf, d.next s buf = .more → Q s buf)
    (fail : ∀ s buf e, d.next s buf = .fail e → Q s buf) (s : σ) (buf : List β) : Q s buf := by
  induction hk : buf.length using Nat.strongRecOn generalizing s buf with
  | _ k ih =>
    cases hnext : d.next s buf with
    | item a s' rest =>
      have hlt := d.shrinks hnext
      exact item s buf a s' rest hnext (ih rest.length (by omega) s' rest rfl)
    | more => exact more s buf hnext
    | fail e => exact fail s buf e hnext

theorem exists_flatMap_of_drain {γ : Type} {enc : γ → List β}
    (hmore : ∀ {s buf}, d.next s buf = .more → buf = [])
    (hitem : ∀ {s buf a s' rest}, d.next s buf = .item a s' rest → ∃ x, buf = enc x ++ rest)
    (h : (d.drain s buf).failed = none) : ∃ xs : List γ, buf = xs.flatMap enc := by
  induction s, buf using d.drain_induction with
  | item s buf a s' rest hnext ih =>
    rw [drain_item hnext] at h
    obtain ⟨xs, rfl⟩ := ih h
    obtain ⟨x, hx⟩ := hitem hnext
    exact ⟨x :: xs, hx⟩
  | more s buf hnext => exact ⟨[], hmore hnext⟩
  | fail s buf e hnext =>
    rw [drain_fail hnext] at h
    cases h

variable (d) in
structure Stable : Prop where
  item : ∀ {s buf a s' rest}, d.next s buf = .item a s' rest →
    ∃ front, buf = front ++ rest ∧ ∀ x, d.next s (front ++ x) = .item a s' x
  fail : ∀ {s buf e}, d.next s buf = .fail e → ∀ x, d.next s (buf ++ x) = .fail e

theorem Stable.item_append (hd : d.Stable) (h : d.next s buf = .item a s' rest) (x : List β) :
    d.next s (buf ++ x) = .item a s' (rest ++ x) := by
  obtain ⟨front, rfl, hfront⟩ := hd.item h
  rw [List.append_assoc]
  exact hfront (rest ++ x)

theorem Stable.drain_rest_isSuffix (hd : d.Stable) (s : σ) (buf : List β) :
    (d.drain s buf).rest <:+ buf := by
  induction s, buf using d.drain_induction with
  | item s buf a s' rest hnext ih =>
    rw [drain_item hnext]
    obtain ⟨front, rfl, -⟩ := hd.item hnext
    exact ih.trans (List.suffix_append front rest)
  | more s buf hnext =>
    simp [drain_more hnext]
  | fail s buf e hnext =>
    simp [drain_fail hnext]

def resume (d : Decoder σ ε α β) (r : Drained σ ε α β) (x : List β) : Drained σ ε α β :=
  match r.failed with
  | some _ => r
  | none =>
    let t := d.drain r.state (r.rest ++ x)
    ⟨r.items ++ t.items, t.state, t.rest, t.failed⟩

structure Drained.Same (r t : Drained σ ε α β) : Prop where
  items : r.items = t.items
  state : r.state = t.state
  failed : r.failed = t.failed
  rest : t.failed = none → r.rest = t.rest

theorem resume_drain (hd : d.Stable) (s : σ) (buf x : List β) :
    Drained.Same (d.resume (d.drain s buf) x) (d.drain s (buf ++ x)) := by
  induction s, buf using d.drain_induction with
  | item s buf a s' rest hnext ih =>
    rw [drain_item hnext, drain_item (hd.item_append hnext x)]
    unfold resume at ih ⊢
    cases hf : (d.drain s' rest).failed with
    | some e =>
      simp only [hf] at ih ⊢
      exact ⟨congrArg (a :: ·) ih.items, ih.state, hf ▸ ih.failed, ih.rest⟩
    | none =>
      simp only [hf] at ih ⊢
      exact ⟨congrArg (a :: ·) ih.items, ih.state, ih.failed, ih.rest⟩
  | more s buf hnext =>
    rw [drain_more hnext]
    exact ⟨rfl, rfl, rfl, fun _ => rfl⟩
  | fail s buf e hnext =>
    rw [drain_fail hnext, drain_fail (hd.fail hnext x)]
    exact ⟨rfl, rfl, rfl, fun h => by simp at h⟩

theorem Drained.Same.resume {r t : Drained σ ε α β} (h : Drained.Same r t) (x : List β) :
    Drained.Same (d.resume r x) (d.resume t x) := by
  unfold Decoder.resume
  cases hf : t.failed with
  | some e =>
    rw [h.failed, hf]
    exact h
  | none =>
    rw [h.failed, hf]
    simp only [h.items, h.state, h.rest hf]
    exact ⟨rfl, rfl, rfl, fun _ => rfl⟩

theorem Drained.Same.trans {r t u : Drained σ ε α β} (h : Drained.Same r t)
    (h' : Drained.Same t u) : Drained.Same r u where
  items := h.items.trans h'.items
  state := h.state.trans h'.state
  failed := h.failed.trans h'.failed
  rest hu := (h.rest (h'.failed.trans hu)).trans (h'.rest hu)

def feed (d : Decoder σ ε α β) (s : σ) (chunks : List (List β)) : Drained σ ε α β :=
  chunks.foldl d.resume (d.drain s [])

theorem feed_same_drain (hd : d.Stable) (s : σ) (chunks : List (List β)) :
    Drained.Same (d.feed s chunks) (d.drain s chunks.flatten) := by
  have hfold : ∀ (chunks : List (List β)) (r : Drained σ ε α β) (buf : List β),
      Drained.Same r (d.drain s buf) →
      Drained.Same (chunks.foldl d.resume r) (d.drain s (buf ++ chunks.flatten)) := by
    intro chunks
    induction chunks with
    | nil => intro r buf h; simpa using h
    | cons c chunks ih =>
      intro r buf h
      rw [List.foldl_cons, List.flatten_cons, ← List.append_assoc]
      exact ih _ _ ((h.resume c).trans (resume_drain hd s buf c))
  exact hfold chunks _ [] ⟨rfl, rfl, rfl, fun _ => rfl⟩

end Decoder
end HapRust.Lib
