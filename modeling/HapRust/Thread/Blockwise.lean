import HapRust.Thread.Coap

/-! Block-wise responses. A post goes by the block number of each reply and stops
where a reply has no block option, so that the blocks it puts together are the
consecutive ones exactly if every reply is the block that was asked for. -/

namespace HapRust.Thread
open Lib Asking

/-! ## Posts, question by question -/

def tokenBytes (id : UInt16) : Bytes := [UInt8.ofNat (id.toNat / 256), UInt8.ofNat id.toNat]

def firstRequest (path : String) (payload : Bytes) (tokenId id : UInt16) : Packet :=
  ⟨.confirmable, 0x02, id, tokenBytes tokenId, path, none, payload⟩

def continuation (path : String) (sizeExponent : Fin 8) (block : BlockValue) (tokenId id : UInt16) :
    Packet :=
  ⟨.confirmable, 0x02, id, tokenBytes tokenId, path, some ⟨block.num + 1, false, sizeExponent⟩, []⟩

section
variable [CoapLite]

def fetchNext (path : String) (sizeExponent : Fin 8) (left : Nat) (full : Bytes) :
    Except CoapError Packet → CoapM CoapResponse
  | .error e => throw e
  | .ok r =>
    match r.block2 with
    | some next => fetchBlocks path sizeExponent left r.splitCode next (full ++ r.payload)
    | none => pure ⟨r.splitCode, full ++ r.payload⟩

def postNext (path : String) : Except CoapError Packet → CoapM CoapResponse
  | .error e => throw e
  | .ok r =>
    match r.block2 with
    | none => pure ⟨r.splitCode, r.payload⟩
    | some block =>
      fetchBlocks path block.sizeExponent (maxBlocks - 1) r.splitCode block r.payload

section
variable (path : String) (sizeExponent : Fin 8) (code : UInt8 × UInt8) {block : BlockValue}
  (full : Bytes)

theorem fetchBlocks_done (left : Nat) (hmore : block.more = false) :
    fetchBlocks path sizeExponent left code block full = pure ⟨code, full⟩ := by
  cases left <;> rw [fetchBlocks, hmore] <;> rfl

theorem fetchBlocks_zero (hmore : block.more = true) :
    fetchBlocks path sizeExponent 0 code block full =
      lift (.error (.coap "too many Block2 fragments in one response")) := by
  rw [fetchBlocks, hmore]
  rfl

theorem fetchBlocks_last (left : Nat) (hmore : block.more = true)
    (hnum : ¬ block.num.toNat + 1 < 2 ^ 16) :
    ∃ e, fetchBlocks path sizeExponent (left + 1) code block full = lift (.error (.coap e)) := by
  obtain ⟨e, he⟩ := CoapLite.newBlock_large false (blockSize sizeExponent) (Nat.le_of_not_lt hnum)
  refine ⟨"invalid Block2 request: " ++ e, ?_⟩
  rw [fetchBlocks, hmore, BlockValue.following, he]
  rfl

theorem fetchBlocks_more (left : Nat) (hmore : block.more = true)
    (hnum : block.num.toNat + 1 < 2 ^ 16) :
    fetchBlocks path sizeExponent (left + 1) code block full =
      Dialogue.ask .nextMessageId fun x => .ask .nextMessageId fun y =>
        .ask (.exchange (continuation path sizeExponent block x.id y.id)) fun z =>
          fetchNext path sizeExponent left full z.response := by
  have hnext : UInt16.ofNat (block.num.toNat + 1) = block.num + 1 := by
    rw [UInt16.ofNat_add, UInt16.ofNat_toNat]
    rfl
  obtain ⟨hexponent, hlow, hhigh⟩ := exponent_blockSize sizeExponent
  rw [fetchBlocks, hmore, BlockValue.following, CoapLite.newBlock_ok false hnum hlow hhigh,
    hexponent, hnext]
  refine Dialogue.ask_congr fun x => Dialogue.ask_congr fun y => Dialogue.ask_congr fun z => ?_
  obtain ⟨id, response⟩ := z
  cases response with
  | error e => rfl
  | ok r => rfl

end

theorem post_eq (path : String) (payload : Bytes) :
    post path payload =
      Dialogue.ask .nextMessageId fun x => .ask .nextMessageId fun y =>
        .ask (.exchange (firstRequest path payload x.id y.id)) fun z => postNext path z.response := by
  refine Dialogue.ask_congr fun x => Dialogue.ask_congr fun y => Dialogue.ask_congr fun z => ?_
  obtain ⟨id, response⟩ := z
  cases response with
  | error e => rfl
  | ok r => rfl

end

/-! ## The blocks of a response -/

def exchangesOf (transcript : List (CoapCall × CoapAnswer)) : List (Packet × Packet) :=
  transcript.filterMap fun
    | (.exchange request, ⟨_, .ok reply⟩) => some (request, reply)
    | _ => none

def blocksOf [CoapLite] (path : String) (payload : Bytes) (answers : List CoapAnswer) : List (Packet × Packet) :=
  exchangesOf (Dialogue.transcript (post path payload) answers)

def requestedBlock (request : Packet) : Nat := (request.block2.map (·.num.toNat)).getD 0

def Consecutive (n : Nat) (code : UInt8 × UInt8) (blocks : List (Packet × Packet)) : Prop :=
  ∀ (i : Nat) (hi : i < blocks.length), requestedBlock blocks[i].1 = n + i ∧
    blocks[i].2.splitCode = code ∧ ∃ b, blocks[i].2.block2 = some b ∧ b.num.toNat = n + i ∧
      (b.more = true ↔ i + 1 < blocks.length)

/-- Every reply is the block asked for, with this code. -/
def Echoed (code : UInt8 × UInt8) (blocks : List (Packet × Packet)) : Prop :=
  ∀ x ∈ blocks, x.2.splitCode = code ∧
    ∃ b, x.2.block2 = some b ∧ b.num.toNat = requestedBlock x.1

inductive Fetched : BlockValue → UInt8 × UInt8 → List (Packet × Packet) → UInt8 × UInt8 → Prop
  | done {block : BlockValue} {code : UInt8 × UInt8} (hmore : block.more = false) :
      Fetched block code [] code
  | stop {block : BlockValue} {code : UInt8 × UInt8} {request reply : Packet}
      (hmore : block.more = true) (hreply : reply.block2 = none) :
      Fetched block code [(request, reply)] reply.splitCode
  | next {block b : BlockValue} {code code' : UInt8 × UInt8} {request reply : Packet}
      {rest : List (Packet × Packet)} (hmore : block.more = true)
      (hrequest : requestedBlock request = block.num.toNat + 1) (hreply : reply.block2 = some b)
      (hrest : Fetched b reply.splitCode rest code') :
      Fetched block code ((request, reply) :: rest) code'

theorem consecutive_cons {n : Nat} {code : UInt8 × UInt8} {x : Packet × Packet}
    {rest : List (Packet × Packet)} :
    Consecutive n code (x :: rest) ↔
      (requestedBlock x.1 = n ∧ x.2.splitCode = code ∧
        ∃ b, x.2.block2 = some b ∧ b.num.toNat = n ∧ (b.more = true ↔ rest ≠ [])) ∧
      Consecutive (n + 1) code rest := by
  have hne : rest ≠ [] ↔ 0 + 1 < (x :: rest).length := by
    rw [← List.length_pos_iff, List.length_cons]
    omega
  constructor
  · intro h
    refine ⟨?_, ?_⟩
    · rw [hne]
      exact h 0 (by simp)
    · intro i hi
      have hnext := h (i + 1) (by rw [List.length_cons]; omega)
      simp only [List.getElem_cons_succ, List.length_cons, Nat.add_lt_add_iff_right] at hnext
      rwa [show n + (i + 1) = n + 1 + i by omega] at hnext
  · rintro ⟨hhead, htail⟩ i hi
    cases i with
    | zero =>
      rw [hne] at hhead
      exact hhead
    | succ i =>
      rw [List.length_cons] at hi
      have hnext := htail i (by omega)
      simp only [List.getElem_cons_succ, List.length_cons, Nat.add_lt_add_iff_right]
      rwa [show n + (i + 1) = n + 1 + i by omega]

theorem Fetched.consecutive_iff {block : BlockValue} {code code' : UInt8 × UInt8}
    {rest : List (Packet × Packet)} (h : Fetched block code rest code') :
    (Consecutive (block.num.toNat + 1) code rest ∧ code' = code ∧ (block.more = true ↔ rest ≠ [])) ↔
      Echoed code rest := by
  induction h with
  | done hmore =>
    constructor
    · intro _ x hx
      cases hx
    · intro _
      refine ⟨?_, rfl, by simp [hmore]⟩
      intro i hi
      cases hi
  | stop hmore hreply =>
    constructor
    · rintro ⟨hconsecutive, -⟩
      obtain ⟨⟨-, -, b, hb, -⟩, -⟩ := consecutive_cons.mp hconsecutive
      cases hreply.symm.trans hb
    · intro hechoed
      obtain ⟨-, b, hb, -⟩ := hechoed _ (List.mem_singleton_self _)
      cases hreply.symm.trans hb
  | @next block b code code' request reply rest hmore hrequest hreply _ ih =>
    constructor
    · rintro ⟨hconsecutive, rfl, -⟩
      obtain ⟨⟨-, hcode, b', hb', hnum, hlast⟩, htail⟩ := consecutive_cons.mp hconsecutive
      obtain rfl := Option.some.inj (hreply.symm.trans hb')
      rw [← hnum, ← hcode] at htail
      have hrest := ih.mp ⟨htail, hcode.symm, hlast⟩
      intro x hx
      rcases List.mem_cons.mp hx with rfl | hx
      · exact ⟨hcode, b, hreply, hnum.trans hrequest.symm⟩
      · rw [← hcode]
        exact hrest x hx
    · intro hechoed
      obtain ⟨hcode, b', hb', hnum⟩ := hechoed _ (List.mem_cons_self ..)
      obtain rfl := Option.some.inj (hreply.symm.trans hb')
      rw [hrequest] at hnum
      have hrest : Echoed reply.splitCode rest := by
        intro x hx
        rw [show reply.splitCode = code from hcode]
        exact hechoed x (List.mem_cons_of_mem _ hx)
      obtain ⟨htail, hcode', hlast⟩ := ih.mpr hrest
      rw [hnum, show reply.splitCode = code from hcode] at htail
      refine ⟨consecutive_cons.mpr ⟨⟨hrequest, hcode, b, hreply, hnum, hlast⟩, htail⟩, ?_, ?_⟩
      · rw [hcode']
        exact hcode
      · simp [hmore]

/-! ## What a run puts together -/

theorem requestedBlock_continuation (path : String) (sizeExponent : Fin 8) {block : BlockValue}
    (tokenId id : UInt16) (hnum : block.num.toNat + 1 < 2 ^ 16) :
    requestedBlock (continuation path sizeExponent block tokenId id) = block.num.toNat + 1 := by
  simp only [requestedBlock, continuation, Option.map_some, Option.getD_some, UInt16.toNat_add]
  exact Nat.mod_eq_of_lt hnum

section
variable [CoapLite]

def FetchedBy (program : CoapM CoapResponse) (answers : List CoapAnswer) (block : BlockValue)
    (code : UInt8 × UInt8) (full : Bytes) (resp : CoapResponse) : Prop :=
  Fetched block code (exchangesOf (Dialogue.transcript program answers)) resp.code ∧
    resp.payload = full ++ (exchangesOf (Dialogue.transcript program answers)).flatMap (·.2.payload)

section
variable {path : String} {sizeExponent : Fin 8} {left : Nat} {code : UInt8 × UInt8}
  {block : BlockValue} {full : Bytes} {answers : List CoapAnswer} {resp : CoapResponse}

theorem fetchedBy_done (hmore : block.more = false)
    (h : (fetchBlocks path sizeExponent left code block full).outcome answers = some (.ok resp)) :
    FetchedBy (fetchBlocks path sizeExponent left code block full) answers block code full resp := by
  rw [fetchBlocks_done path sizeExponent code full left hmore] at h ⊢
  obtain ⟨rfl, hresp⟩ := Dialogue.outcome_ret_nil h
  obtain rfl := Except.ok.inj hresp
  exact ⟨.done hmore, (List.append_nil _).symm⟩

theorem fetched_of_reply (hmore : block.more = true) {request r : Packet}
    (hrequest : requestedBlock request = block.num.toNat + 1)
    (ih : ∀ {code block full},
      (fetchBlocks path sizeExponent left code block full).outcome answers = some (.ok resp) →
      FetchedBy (fetchBlocks path sizeExponent left code block full) answers block code full resp)
    (h : (fetchNext path sizeExponent left full (.ok r)).outcome answers = some (.ok resp)) :
    Fetched block code ((request, r) :: exchangesOf (Dialogue.transcript
        (fetchNext path sizeExponent left full (.ok r)) answers)) resp.code ∧
      resp.payload = full ++ (r.payload ++ (exchangesOf (Dialogue.transcript
        (fetchNext path sizeExponent left full (.ok r)) answers)).flatMap (·.2.payload)) := by
  cases hblock : r.block2 with
  | none =>
    have hnext : fetchNext path sizeExponent left full (.ok r) =
        pure ⟨r.splitCode, full ++ r.payload⟩ := by simp only [fetchNext, hblock]
    rw [hnext] at h ⊢
    obtain ⟨rfl, hresp⟩ := Dialogue.outcome_ret_nil h
    obtain rfl := Except.ok.inj hresp
    refine ⟨.stop hmore hblock, ?_⟩
    exact congrArg (full ++ ·) (List.append_nil r.payload).symm
  | some b =>
    have hnext : fetchNext path sizeExponent left full (.ok r) =
        fetchBlocks path sizeExponent left r.splitCode b (full ++ r.payload) := by
      simp only [fetchNext, hblock]
    rw [hnext] at h ⊢
    obtain ⟨hfetched, hpayload⟩ := ih h
    refine ⟨.next hmore hrequest hblock hfetched, ?_⟩
    rw [← List.append_assoc]
    exact hpayload

theorem fetched_of_outcome
    (h : (fetchBlocks path sizeExponent left code block full).outcome answers = some (.ok resp)) :
    FetchedBy (fetchBlocks path sizeExponent left code block full) answers block code full resp := by
  induction left generalizing code block full answers with
  | zero =>
    cases hmore : block.more with
    | false => exact fetchedBy_done hmore h
    | true =>
      rw [fetchBlocks_zero path sizeExponent code full hmore] at h
      cases Dialogue.outcome_ret h
  | succ left ih =>
    cases hmore : block.more with
    | false => exact fetchedBy_done hmore h
    | true =>
      by_cases hnum : block.num.toNat + 1 < 2 ^ 16
      · rw [fetchBlocks_more path sizeExponent code full left hmore hnum] at h ⊢
        rcases answers with _ | ⟨x, _ | ⟨y, _ | ⟨⟨id, _ | r⟩, answers⟩⟩⟩
        · cases h
        · cases h
        · cases h
        · cases Dialogue.outcome_ret h
        · have hrequest := requestedBlock_continuation path sizeExponent x.id y.id hnum
          exact fetched_of_reply hmore hrequest ih h
      · obtain ⟨e, he⟩ := fetchBlocks_last path sizeExponent code full left hmore hnum
        rw [he] at h
        cases Dialogue.outcome_ret h

end

theorem blocks_of_outcome {path : String} {payload : Bytes} {answers : List CoapAnswer}
    {resp : CoapResponse} (h : (post path payload).outcome answers = some (.ok resp))
    {request reply : Packet} {rest : List (Packet × Packet)} {b : BlockValue}
    (hblocks : blocksOf path payload answers = (request, reply) :: rest)
    (hreply : reply.block2 = some b) :
    requestedBlock request = 0 ∧ Fetched b reply.splitCode rest resp.code ∧
      resp.payload = reply.payload ++ rest.flatMap (·.2.payload) := by
  rw [post_eq] at h
  rw [blocksOf, post_eq] at hblocks
  rcases answers with _ | ⟨x, _ | ⟨y, _ | ⟨⟨id, _ | r⟩, answers⟩⟩⟩
  · cases h
  · cases h
  · cases h
  · cases Dialogue.outcome_ret h
  · change (firstRequest path payload x.id y.id, r) ::
      exchangesOf (Dialogue.transcript (postNext path (.ok r)) answers) = _ at hblocks
    obtain ⟨hpair, hrest⟩ := List.cons.inj hblocks
    obtain ⟨rfl, rfl⟩ := Prod.mk.inj hpair
    have hnext : postNext path (.ok r) =
        fetchBlocks path b.sizeExponent (maxBlocks - 1) r.splitCode b r.payload := by
      simp only [postNext, hreply]
    change (postNext path (.ok r)).outcome answers = _ at h
    rw [hnext] at h hrest
    obtain ⟨hfetched, hpayload⟩ := fetched_of_outcome h
    rw [hrest] at hfetched hpayload
    exact ⟨rfl, hfetched, hpayload⟩

/-- The response is the blocks with numbers 0, 1, 2, … in this order. -/
def Reassembled (blocks : List (Packet × Packet)) (resp : CoapResponse) : Prop :=
  Consecutive 0 resp.code blocks ∧ resp.payload = blocks.flatMap (·.2.payload)

/-- The first reply is a block. -/
def InBlocks (blocks : List (Packet × Packet)) : Prop :=
  (blocks.head?.bind fun x => x.2.block2).isSome = true

/-- A post that returns a response in blocks has put the consecutive ones together exactly
if every reply is the block that was asked for and all have one code. -/
theorem reassembled_iff_echoed {path : String} {payload : Bytes} {answers : List CoapAnswer}
    {resp : CoapResponse} (h : (post path payload).outcome answers = some (.ok resp))
    (hblockwise : InBlocks (blocksOf path payload answers)) :
    Reassembled (blocksOf path payload answers) resp ↔
      ∃ code, Echoed code (blocksOf path payload answers) := by
  obtain ⟨b, hb⟩ := Option.isSome_iff_exists.mp hblockwise
  obtain ⟨⟨request, reply⟩, hhead, hreply⟩ := Option.bind_eq_some_iff.mp hb
  obtain ⟨rest, hblocks⟩ := List.head?_eq_some_iff.mp hhead
  obtain ⟨hrequest, hfetched, hpayload⟩ := blocks_of_outcome h hblocks hreply
  rw [hblocks]
  constructor
  · rintro ⟨hconsecutive, -⟩
    obtain ⟨⟨-, hcode, b', hb', hnum, hlast⟩, htail⟩ := consecutive_cons.mp hconsecutive
    obtain rfl := Option.some.inj (hreply.symm.trans hb')
    rw [← hnum, ← hcode] at htail
    have hrest := hfetched.consecutive_iff.mp ⟨htail, hcode.symm, hlast⟩
    refine ⟨reply.splitCode, ?_⟩
    intro x hx
    rcases List.mem_cons.mp hx with rfl | hx
    · exact ⟨rfl, b, hreply, hnum.trans hrequest.symm⟩
    · exact hrest x hx
  · rintro ⟨code, hechoed⟩
    obtain ⟨hcode, b', hb', hnum⟩ := hechoed _ (List.mem_cons_self ..)
    obtain rfl := Option.some.inj (hreply.symm.trans hb')
    obtain rfl : reply.splitCode = code := hcode
    obtain ⟨htail, hcode', hlast⟩ := hfetched.consecutive_iff.mpr
      fun x hx => hechoed x (List.mem_cons_of_mem _ hx)
    rw [show requestedBlock (request, reply).1 = 0 from hrequest] at hnum
    rw [hnum] at htail
    refine ⟨?_, hpayload⟩
    rw [hcode']
    exact consecutive_cons.mpr ⟨⟨hrequest, rfl, b, hreply, hnum, hlast⟩, htail⟩

end

def blockReply (num : UInt16) (more : Bool) (payload : Bytes) : Packet :=
  ⟨.acknowledgement, 0x44, 0, [], "", some ⟨num, more, exponent 16⟩, payload⟩

def answersOf (replies : List Packet) : List CoapAnswer :=
  replies.flatMap fun r => [⟨1, .error .io⟩, ⟨2, .error .io⟩, ⟨0, .ok r⟩]

attribute [local instance] coapLite

theorem reassembled_iff_echoed_two :
    (post "" [9]).outcome (answersOf [blockReply 0 true [1], blockReply 1 false [2]]) =
      some (.ok ⟨(2, 4), [1, 2]⟩) ∧
    Reassembled (blocksOf "" [9] (answersOf [blockReply 0 true [1], blockReply 1 false [2]]))
      ⟨(2, 4), [1, 2]⟩ := by
  have hblocks : blocksOf "" [9] (answersOf [blockReply 0 true [1], blockReply 1 false [2]]) =
      [(firstRequest "" [9] 1 2, blockReply 0 true [1]),
        (continuation "" 0 ⟨0, true, 0⟩ 1 2, blockReply 1 false [2])] := by decide +kernel
  refine ⟨?run, (reassembled_iff_echoed ?run ?_).mpr ⟨(2, 4), ?_⟩⟩
  case run => decide +kernel
  · rw [hblocks]
    rfl
  · rw [hblocks]
    intro x hx
    rcases List.mem_cons.mp hx with rfl | hx
    · exact ⟨rfl, _, rfl, rfl⟩
    · obtain rfl := List.mem_singleton.mp hx
      exact ⟨rfl, _, rfl, rfl⟩

/-- Block 0 is followed by block 5: the post returns the two as the whole response. -/
theorem skipped_blocks :
    (post "" [9]).outcome (answersOf [blockReply 0 true [1], blockReply 5 false [2]]) =
      some (.ok ⟨(2, 4), [1, 2]⟩) ∧
    InBlocks (blocksOf "" [9] (answersOf [blockReply 0 true [1], blockReply 5 false [2]])) ∧
    ¬ Reassembled (blocksOf "" [9] (answersOf [blockReply 0 true [1], blockReply 5 false [2]]))
      ⟨(2, 4), [1, 2]⟩ := by
  have hblocks : blocksOf "" [9] (answersOf [blockReply 0 true [1], blockReply 5 false [2]]) =
      [(firstRequest "" [9] 1 2, blockReply 0 true [1]),
        (continuation "" 0 ⟨0, true, 0⟩ 1 2, blockReply 5 false [2])] := by decide +kernel
  rw [hblocks]
  refine ⟨by decide +kernel, rfl, ?_⟩
  rintro ⟨hconsecutive, -⟩
  obtain ⟨-, -, b, hb, hnum, -⟩ := hconsecutive 1 (by decide)
  obtain rfl := Option.some.inj hb
  cases hnum

end HapRust.Thread
