import HapRust.Transport.Record

/-! A stream of record frames under an ideal cipher: however the socket cuts it,
the reader recovers the blocks that were sealed, and whatever is put on the
wire instead, it releases no more than a first part of them. -/

namespace HapRust.Transport
open Lib Crypto

variable (P : Primitives) (key : Arr 32)

def encryptBlocks : UInt64 → List Bytes → Except TransportError (Bytes × UInt64)
  | counter, [] => .ok ([], counter)
  | counter, block :: blocks =>
    match encryptFrame P key counter block with
    | (.error e, _) => .error e
    | (.ok frame, counter') => do
      let (wire, last) ← encryptBlocks counter' blocks
      return (frame ++ wire, last)

/-- What the sender of `blocks` has sealed: the block number `i` under nonce `i`. -/
def SentBy (blocks : List Bytes) (nonce : Arr 12) (aad msg : Bytes) : Prop :=
  ∃ i < blocks.length, blocks[i]? = some msg ∧ nonce = counterNonce (UInt64.ofNat i) ∧
    aad = leBytes 2 msg.length

instance (blocks : List Bytes) (nonce : Arr 12) (aad msg : Bytes) :
    Decidable (SentBy blocks nonce aad msg) := by
  unfold SentBy
  infer_instance

section Ideal
variable {P key} {blocks : List Bytes} {log : Arr 12 → Bytes → Bytes → Prop}

theorem frameDecoder_stable (ideal : P.chacha20Poly1305.IdealOn key log) :
    (frameDecoder P key).Stable where
  item {counter buf block counter' rest} h := by
    obtain ⟨hd, rfl⟩ := frameNext_eq_item P key h
    obtain ⟨len, ct, rest, rfl, hlen, hdecl, hct, rfl, hdec⟩ := decryptFrame_eq_some P key hd
    have hblock := ideal.length_of_decrypt hdec
    have hfront : (len ++ ct).length = frameLen block.length := by
      rw [List.length_append, hlen, hblock, frameLen, tagLen, Nat.add_assoc]
    rw [List.drop_left' hfront]
    refine ⟨len ++ ct, rfl, ?_⟩
    intro x
    show frameNext P key counter (len ++ ct ++ x) = _
    rw [frameNext, decryptFrame_frame P key counter x hlen hdecl hct]
    simp only [decrypt, hdec, okOr_some, List.drop_left' hfront]
  fail {counter buf e} h x := by
    have hd := frameNext_eq_fail P key h
    have hne : (decryptFrame P key counter buf).1 ≠ .ok none := by
      rw [hd]
      simp
    show frameNext P key counter (buf ++ x) = _
    rw [frameNext, decryptFrame_append P key x hne]
    cases hres : decryptFrame P key counter buf with
    | mk res counter' =>
      rw [hres] at hd
      subst hd
      rfl

theorem frame_step (ideal : P.chacha20Poly1305.IdealOn key log) {counter : UInt64} {block : Bytes}
    (hmax : block.length ≤ maxBlock)
    (hlog : log (counterNonce counter) (leBytes 2 block.length) block) :
    ∃ frame, encryptFrame P key counter block = (.ok frame, counter + 1) ∧
      ∀ x, frameNext P key counter (frame ++ x) = .item block (counter + 1) x := by
  obtain ⟨c, hc, hlen⟩ := ideal.seals hlog
  have hopen := ideal.opens.mpr ⟨hlog, hc⟩
  refine ⟨leBytes 2 block.length ++ c, ?_, ?_⟩
  · rw [encryptFrame, if_neg (Nat.not_lt.mpr hmax)]
    simp only [encrypt, hc, okOr_some]
  · intro x
    have hdecl : leNat (leBytes 2 block.length) = block.length := by
      rw [leNat_leBytes, Nat.mod_eq_of_lt (lt_of_le_of_lt hmax (by decide))]
    have hct : c.length = leNat (leBytes 2 block.length) + tagLen := by rw [hlen, hdecl, tagLen]
    have hdec : decryptFrame P key counter (leBytes 2 block.length ++ c ++ x) =
        (.ok (some block), counter + 1) := by
      rw [decryptFrame_frame P key counter x (leBytes_length 2 _) (hdecl.le.trans hmax) hct]
      simp only [decrypt, hopen, okOr_some]
    have htotal : (leBytes 2 block.length ++ c).length = frameLen block.length := by
      rw [List.length_append, leBytes_length, hct, hdecl, frameLen, lenPrefix, Nat.add_assoc]
    rw [frameNext, hdec]
    simp only [List.drop_left' htotal]

theorem drain_encryptBlocks (ideal : P.chacha20Poly1305.IdealOn key log) :
    ∀ (blocks : List Bytes) (start : Nat), (∀ b ∈ blocks, b.length ≤ maxBlock) →
      (∀ i b, blocks[i]? = some b →
        log (counterNonce (UInt64.ofNat (start + i))) (leBytes 2 b.length) b) →
      ∃ wire, encryptBlocks P key (UInt64.ofNat start) blocks =
          .ok (wire, UInt64.ofNat (start + blocks.length)) ∧
        (frameDecoder P key).drain (UInt64.ofNat start) wire =
          ⟨blocks, UInt64.ofNat (start + blocks.length), [], none⟩ := by
  intro blocks
  induction blocks with
  | nil =>
    intro start _ _
    refine ⟨[], rfl, ?_⟩
    exact Decoder.drain_more rfl
  | cons block blocks ih =>
    intro start hmax hlog
    obtain ⟨frame, henc, hnext⟩ := frame_step ideal (hmax block (List.mem_cons_self ..))
      (hlog 0 block rfl)
    rw [Nat.add_zero] at henc hnext
    have hsucc : UInt64.ofNat start + 1 = UInt64.ofNat (start + 1) :=
      (UInt64.ofNat_add start 1).symm
    have hlen : start + (block :: blocks).length = start + 1 + blocks.length := by
      rw [List.length_cons]; omega
    obtain ⟨wire, hwire, hdrain⟩ := ih (start + 1)
      (fun b hb => hmax b (List.mem_cons_of_mem _ hb)) (by
        intro i b hb
        rw [Nat.add_assoc, Nat.add_comm 1 i]
        exact hlog (i + 1) b hb)
    refine ⟨frame ++ wire, ?_, ?_⟩
    · rw [encryptBlocks, henc, hsucc]
      simp only [hwire, ok_bind, hlen, pure_eq_ok]
    · have hitem : (frameDecoder P key).next (UInt64.ofNat start) (frame ++ wire) =
          .item block (UInt64.ofNat (start + 1)) wire := hsucc ▸ hnext wire
      rw [Decoder.drain_item hitem, hdrain, hlen]

theorem block_of_decryptFrame (ideal : P.chacha20Poly1305.IdealOn key (SentBy blocks))
    (hn : blocks.length < 2 ^ 64) {k : Nat} (hk : k ≤ blocks.length) {buf block : Bytes}
    {counter' : UInt64}
    (h : decryptFrame P key (UInt64.ofNat k) buf = (.ok (some block), counter')) :
    blocks[k]? = some block ∧ counter' = UInt64.ofNat (k + 1) := by
  obtain ⟨_, _, _, _, -, -, -, hctr, hdec⟩ := decryptFrame_eq_some P key h
  obtain ⟨⟨i, hi, hblock, hnonce, -⟩, -⟩ := ideal.opens.mp hdec
  have hki : k = i := counterNonce_injective (by omega) (by omega) hnonce
  refine ⟨hki ▸ hblock, ?_⟩
  rw [hctr, UInt64.ofNat_add]
  rfl

theorem drain_take (ideal : P.chacha20Poly1305.IdealOn key (SentBy blocks))
    (hn : blocks.length < 2 ^ 64) (counter : UInt64) (buf : Bytes) :
    ∀ k ≤ blocks.length, counter = UInt64.ofNat k →
      ∃ j ≤ blocks.length,
        blocks.take k ++ ((frameDecoder P key).drain counter buf).items = blocks.take j ∧
        ((frameDecoder P key).drain counter buf).state = UInt64.ofNat j := by
  induction counter, buf using (frameDecoder P key).drain_induction with
  | item counter buf block counter' rest hnext ih =>
    rintro k hk rfl
    obtain ⟨hd, -⟩ := frameNext_eq_item P key hnext
    obtain ⟨hblock, hctr⟩ := block_of_decryptFrame ideal hn hk hd
    have hlt : k < blocks.length := (List.getElem?_eq_some_iff.mp hblock).1
    obtain ⟨j, hj, hitems, hstate⟩ := ih (k + 1) hlt hctr
    refine ⟨j, hj, ?_, ?_⟩
    · rw [Decoder.drain_item hnext, ← hitems, List.take_add_one, hblock, Option.toList_some,
        List.append_assoc, List.singleton_append]
    · rw [Decoder.drain_item hnext, hstate]
  | more counter buf hnext =>
    rintro k hk rfl
    rw [Decoder.drain_more hnext]
    exact ⟨k, hk, List.append_nil _, rfl⟩
  | fail counter buf e hnext =>
    rintro k hk rfl
    rw [Decoder.drain_fail hnext]
    exact ⟨k, hk, List.append_nil _, rfl⟩

def readFrames (P : Primitives) (key : Arr 32) (reads : List Bytes) :
    Drained UInt64 TransportError Bytes UInt8 :=
  (frameDecoder P key).feed 0 reads

theorem readFrames_encryptBlocks (hmax : ∀ b ∈ blocks, b.length ≤ maxBlock)
    (ideal : P.chacha20Poly1305.IdealOn key (SentBy blocks)) :
    ∃ wire, encryptBlocks P key 0 blocks = .ok (wire, UInt64.ofNat blocks.length) ∧
      ∀ reads, reads.flatten = wire →
        readFrames P key reads = ⟨blocks, UInt64.ofNat blocks.length, [], none⟩ := by
  have hlog : ∀ i b, blocks[i]? = some b →
      SentBy blocks (counterNonce (UInt64.ofNat (0 + i))) (leBytes 2 b.length) b := by
    intro i b hb
    have hi : i < blocks.length := (List.getElem?_eq_some_iff.mp hb).1
    exact ⟨i, hi, hb, by rw [Nat.zero_add], rfl⟩
  obtain ⟨wire, hwire, hdrain⟩ := drain_encryptBlocks ideal blocks 0 hmax hlog
  rw [Nat.zero_add] at hwire hdrain
  refine ⟨wire, hwire, ?_⟩
  intro reads hreads
  have hsame := Decoder.feed_same_drain (frameDecoder_stable ideal) 0 reads
  rw [hreads] at hsame
  change Decoder.Drained.Same _ ((frameDecoder P key).drain (UInt64.ofNat 0) wire) at hsame
  rw [hdrain] at hsame
  exact Drained.ext hsame.items hsame.state (hsame.rest rfl) hsame.failed

/-- The reader recovers what was framed, however it is cut; of any other stream
it releases a first part of what was framed, and a frame that does not open
leaves the counter alone. -/
theorem reader_reconstructs (hmax : ∀ b ∈ blocks, b.length ≤ maxBlock)
    (ideal : P.chacha20Poly1305.IdealOn key (SentBy blocks)) :
    (∃ wire, encryptBlocks P key 0 blocks = .ok (wire, UInt64.ofNat blocks.length) ∧
      ∀ reads, reads.flatten = wire →
        (readFrames P key reads).items.flatten = blocks.flatten ∧
        (readFrames P key reads).state.toNat = blocks.length % 2 ^ 64 ∧
        (readFrames P key reads).rest = [] ∧ (readFrames P key reads).failed = none) ∧
    (blocks.length < 2 ^ 64 → ∀ reads,
      (readFrames P key reads).items.flatten <+: blocks.flatten ∧
      (readFrames P key reads).items.length = (readFrames P key reads).state.toNat) ∧
    ∀ counter buf, (∀ block, (decryptFrame P key counter buf).1 ≠ .ok (some block)) →
      (decryptFrame P key counter buf).2 = counter := by
  refine ⟨?_, ?_, fun counter buf => decryptFrame_counter P key counter buf⟩
  · obtain ⟨wire, hwire, hread⟩ := readFrames_encryptBlocks hmax ideal
    refine ⟨wire, hwire, ?_⟩
    intro reads hreads
    rw [hread reads hreads]
    exact ⟨rfl, UInt64.toNat_ofNat', rfl, rfl⟩
  · intro hn reads
    have hsame := Decoder.feed_same_drain (frameDecoder_stable ideal) 0 reads
    obtain ⟨j, hj, hitems, hstate⟩ :=
      drain_take ideal hn 0 reads.flatten 0 (Nat.zero_le _) rfl
    rw [List.take_zero, List.nil_append, ← hsame.items] at hitems
    rw [← hsame.state] at hstate
    change (readFrames P key reads).items = _ at hitems
    change (readFrames P key reads).state = _ at hstate
    rw [hitems, hstate, UInt64.toNat_ofNat_of_lt' (lt_of_le_of_lt hj hn), List.length_take]
    exact ⟨(List.take_prefix j blocks).flatten, Nat.min_eq_left hj⟩

end Ideal

def recordPrimitives (blocks : List Bytes) : Primitives :=
  { plainPrimitives with chacha20Poly1305 := loggedAead (SentBy blocks) }

theorem reader_reconstructs_two_blocks :
    (readFrames (recordPrimitives [[7], [8, 9]]) (constArr 32 0)
      [[1, 0, 7, 0, 0], List.replicate 14 0 ++ [2, 0, 8, 9] ++ List.replicate 16 0]).items.flatten =
      [7, 8, 9] := by
  have hideal := loggedAead_idealOn (SentBy [[7], [8, 9]]) (constArr 32 0)
  obtain ⟨⟨wire, hwire, hread⟩, -, -⟩ := reader_reconstructs
    (P := recordPrimitives [[7], [8, 9]]) (by decide) hideal
  obtain rfl := (Prod.mk.inj (Except.ok.inj hwire)).1
  exact (hread _ rfl).1

/-- After `2 ^ 64` frames the counter is back at zero. -/
theorem counter_not_number_of_frames :
    ¬ ∀ (P : Primitives) (key : Arr 32) (blocks : List Bytes) (wire : Bytes) (last : UInt64)
      (reads : List Bytes), (∀ b ∈ blocks, b.length ≤ maxBlock) →
      P.chacha20Poly1305.IdealOn key (SentBy blocks) →
      encryptBlocks P key 0 blocks = .ok (wire, last) → reads.flatten = wire →
      (readFrames P key reads).state.toNat = blocks.length := by
  intro hall
  let blocks : List Bytes := List.replicate (2 ^ 64) [0]
  have hmax : ∀ b ∈ blocks, b.length ≤ maxBlock := by
    intro b hb
    rw [List.eq_of_mem_replicate hb]
    decide
  have hideal : (recordPrimitives blocks).chacha20Poly1305.IdealOn (constArr 32 0)
      (SentBy blocks) := loggedAead_idealOn _ _
  obtain ⟨wire, hwire, hread⟩ := readFrames_encryptBlocks hmax hideal
  have hflat : [wire].flatten = wire := by rw [List.flatten_cons, List.flatten_nil, List.append_nil]
  have hcount := hall _ _ blocks wire _ [wire] hmax hideal hwire hflat
  rw [hread [wire] hflat, UInt64.toNat_ofNat', List.length_replicate] at hcount
  simp at hcount

end HapRust.Transport
