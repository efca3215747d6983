import HapRust.Lib.TextRoundTrip
import HapRust.Transport.HttpLocal

/-! Messages as they are written, and that the parser reads them. A start line and
header fields, one to a line, are followed by an empty line and by a body: as many
bytes as a field announces, or chunks, each after its size. -/

namespace HapRust.Transport
open Lib

/-! ## What is written -/

structure NoBreak (l : Bytes) : Prop where
  cr : (13 : UInt8) ∉ l
  lf : (10 : UInt8) ∉ l

structure StartLine where
  status : UInt16
  code : List Char
  numeral : Numeral 10 code status.toNat
  reason : Option Bytes
  noBreak : ∀ r ∈ reason, NoBreak r

def StartLine.line (expected : Bytes) (s : StartLine) : Bytes :=
  expected ++ 32 :: (asBytes (String.ofList s.code) ++ (s.reason.map (32 :: ·)).getD [])

structure Field where
  name : Bytes
  value : Bytes
  noColon : (58 : UInt8) ∉ name

namespace Field

def line (f : Field) : Bytes := f.name ++ 58 :: f.value

def key (f : Field) : String := toAsciiLowercase (trim (fromUtf8Lossy f.name))
def content (f : Field) : String := trim (fromUtf8Lossy f.value)

def length (f : Field) : Option Nat := fromStrRadix 64 10 f.content

def Announces (f : Field) (n : Nat) : Prop :=
  n < 2 ^ 64 ∧ ∃ digits, f.content = String.ofList digits ∧ Numeral 10 digits n

end Field

structure SizedChunk where
  digits : List Char
  data : Bytes
  nonempty : data ≠ []
  size : Numeral 16 digits data.length

def SizedChunk.render (c : SizedChunk) : Bytes :=
  asBytes (String.ofList c.digits) ++ crlf ++ (c.data ++ crlf)

inductive Body where
  | plain (data : Bytes)
  | chunked (chunks : List SizedChunk) (zeros : List Char) (last : Numeral 16 zeros 0)

namespace Body

def isChunked : Body → Bool
  | plain _ => false
  | chunked _ _ _ => true

def bytes : Body → Bytes
  | plain data => data
  | chunked chunks _ _ => chunks.flatMap (·.data)

def render : Body → Bytes
  | plain data => data
  | chunked chunks zeros _ =>
    chunks.flatMap SizedChunk.render ++ (asBytes (String.ofList zeros) ++ crlf ++ crlf)

end Body

structure Message where
  start : StartLine
  fields : List Field
  noBreak : ∀ f ∈ fields, NoBreak f.line
  body : Body
  encoding : ∀ f ∈ fields, f.key = "transfer-encoding" →
    eqIgnoreAsciiCase f.content "chunked" = true
  isChunked : body.isChunked = true ↔ ∃ f ∈ fields, f.key = "transfer-encoding"
  announced : ∀ f ∈ fields, f.key = "content-length" →
    ∃ n, f.Announces n ∧ (body.isChunked = false → n = body.bytes.length)
  unannounced : (∀ f ∈ fields, f.key ≠ "content-length") → body.isChunked = false →
    body.bytes = []

namespace Message

def contentType (fields : List Field) : String :=
  ((fields.filter (·.key = "content-type")).getLast?.map Field.content).getD ""

def head (expected : Bytes) (m : Message) : Bytes :=
  m.start.line expected ++ m.fields.flatMap fun f => crlf ++ f.line

def render (expected : Bytes) (m : Message) : Bytes :=
  m.head expected ++ (crlf ++ crlf) ++ m.body.render

def response (m : Message) : HapResponse :=
  ⟨m.start.status, contentType m.fields, m.body.bytes⟩

end Message

/-- The bytes are a message of this kind. -/
def WellFormed (expected buf : Bytes) : Prop := ∃ m : Message, m.render expected = buf

/-! ## Lines -/

structure IsLine (l : Bytes) : Prop extends NoBreak l where
  nonempty : l ≠ []

theorem Field.isLine {f : Field} (h : NoBreak f.line) : IsLine f.line :=
  ⟨h, by simp [line]⟩

theorem StartLine.isLine (s : StartLine) {expected : Bytes} (h : IsLine expected) :
    IsLine (s.line expected) := by
  have hcode : ∀ b : UInt8, isWhitespace (Char.ofNat b.toNat) = true → b.toNat < 128 →
      b ∉ asBytes (String.ofList s.code) := fun b hb hascii => s.numeral.not_mem hb hascii
  refine ⟨⟨?_, ?_⟩, by simp [line]⟩
  · cases hr : s.reason with
    | none => simp [line, hr, h.cr, hcode 13 (by decide) (by decide)]
    | some r =>
      have hreason := (s.noBreak r hr).cr
      simp [line, hr, h.cr, hcode 13 (by decide) (by decide), hreason]
  · cases hr : s.reason with
    | none => simp [line, hr, h.lf, hcode 10 (by decide) (by decide)]
    | some r =>
      have hreason := (s.noBreak r hr).lf
      simp [line, hr, h.lf, hcode 10 (by decide) (by decide), hreason]

theorem findSubslice_skip {needle l : Bytes} (hneedle : needle.head? = some 13)
    (h : (13 : UInt8) ∉ l) (x : Bytes) :
    findSubslice needle (l ++ x) = (findSubslice needle x).map (· + l.length) := by
  induction l with
  | nil => simp
  | cons b l ih =>
    have hnot : ¬ needle <+: b :: (l ++ x) := by
      rintro ⟨t, ht⟩
      have hb : some (13 : UInt8) = some b := by
        rw [← hneedle, ← List.head?_append_of_ne_nil needle (by rintro rfl; cases hneedle), ht]
        rfl
      exact h (Option.some.inj hb ▸ List.mem_cons_self ..)
    rw [List.cons_append, findSubslice, if_neg hnot, ih fun hmem => h (List.mem_cons_of_mem _ hmem),
      Option.map_map]
    rfl

theorem findSubslice_end {needle l : Bytes} (hneedle : needle.head? = some 13)
    (h : (13 : UInt8) ∉ l) (x : Bytes) :
    findSubslice needle (l ++ needle ++ x) = some l.length := by
  have hhere : findSubslice needle (needle ++ x) = some 0 := by
    cases needle with
    | nil => cases hneedle
    | cons b needle =>
      have hp : b :: needle <+: b :: (needle ++ x) := ⟨x, rfl⟩
      rw [List.cons_append, findSubslice, if_pos hp]
  rw [List.append_assoc, findSubslice_skip hneedle h, hhere, Option.map_some, Nat.zero_add]

theorem findSubslice_blank_skip {l rest : Bytes} (h : (13 : UInt8) ∉ l)
    (hrest : rest.head? ≠ some 13) :
    findSubslice (crlf ++ crlf) (l ++ crlf ++ rest) =
      (findSubslice (crlf ++ crlf) rest).map (· + (l.length + 2)) := by
  have hcr : ¬ (crlf ++ crlf) <+: 13 :: 10 :: rest := by
    rintro ⟨x, hx⟩
    have htail := (List.cons.inj (List.cons.inj hx).2).2
    rw [← htail] at hrest
    exact hrest rfl
  have hbreak : findSubslice (crlf ++ crlf) (crlf ++ rest) =
      (findSubslice (crlf ++ crlf) rest).map (· + 2) := by
    change findSubslice (crlf ++ crlf) (13 :: 10 :: rest) = _
    have hlf : findSubslice (crlf ++ crlf) (10 :: rest) =
        (findSubslice (crlf ++ crlf) rest).map (· + 1) :=
      findSubslice_skip rfl (by decide : (13 : UInt8) ∉ [10]) rest
    rw [findSubslice, if_neg hcr, hlf, Option.map_map]
    rfl
  have hadd : (· + l.length) ∘ (· + 2) = (· + (l.length + 2)) := by
    funext n
    simp only [Function.comp_apply]
    omega
  rw [List.append_assoc, findSubslice_skip rfl h, hbreak, Option.map_map, hadd]

def joinLines (l : Bytes) (lines : List Bytes) : Bytes := l ++ lines.flatMap (crlf ++ ·)

theorem joinLines_cons (l l' : Bytes) (lines : List Bytes) :
    joinLines l (l' :: lines) = l ++ crlf ++ joinLines l' lines := by
  simp only [joinLines, List.flatMap_cons, List.append_assoc]

theorem head?_joinLines {l : Bytes} (h : IsLine l) (lines : List Bytes) (x : Bytes) :
    (joinLines l lines ++ x).head? ≠ some 13 := by
  cases l with
  | nil => exact absurd rfl h.nonempty
  | cons b l =>
    intro heq
    exact h.cr (Option.some.inj heq ▸ List.mem_cons_self ..)

theorem findSubslice_joinLines {l : Bytes} {lines : List Bytes} (hl : IsLine l)
    (hlines : ∀ l' ∈ lines, IsLine l') (x : Bytes) :
    findSubslice (crlf ++ crlf) (joinLines l lines ++ (crlf ++ crlf) ++ x) =
      some (joinLines l lines).length := by
  induction lines generalizing l with
  | nil =>
    rw [joinLines, List.flatMap_nil, List.append_nil]
    exact findSubslice_end rfl hl.cr x
  | cons l' lines ih =>
    have hl' : IsLine l' := hlines l' (List.mem_cons_self ..)
    have hih := ih hl' fun l'' hl'' => hlines l'' (List.mem_cons_of_mem _ hl'')
    have hskip := findSubslice_blank_skip hl.cr
      (by rw [List.append_assoc]; exact head?_joinLines hl' lines (crlf ++ crlf ++ x) :
        (joinLines l' lines ++ (crlf ++ crlf) ++ x).head? ≠ some 13)
    rw [joinLines_cons]
    simp only [List.append_assoc] at hskip hih ⊢
    rw [hskip, hih, Option.map_some]
    simp only [List.length_append]
    congr 1
    have : crlf.length = 2 := rfl
    omega

theorem splitOn_of_not_mem {c : UInt8} {l : Bytes} (h : c ∉ l) : l.splitOn c = [l] := by
  apply List.splitOnP_eq_singleton
  intro b hb
  rw [beq_eq_false_iff_ne]
  rintro rfl
  exact h hb

theorem splitOn_append_cons {c : UInt8} {l : Bytes} (h : c ∉ l) (rest : Bytes) :
    (l ++ c :: rest).splitOn c = l :: rest.splitOn c := by
  apply List.splitOnP_append_cons_of_forall_mem
  · intro b hb
    rw [beq_eq_false_iff_ne]
    rintro rfl
    exact h hb
  · exact beq_self_eq_true c

theorem splitCrlf_joinLines {l : Bytes} {lines : List Bytes} (hl : IsLine l)
    (hlines : ∀ l' ∈ lines, IsLine l') : splitCrlf (joinLines l lines) = l :: lines := by
  induction lines generalizing l with
  | nil =>
    have hlast : l.getLast? ≠ some 13 := fun h => hl.cr (List.mem_of_getLast? h)
    rw [joinLines, List.flatMap_nil, List.append_nil, splitCrlf, splitOn_of_not_mem hl.lf,
      List.map_singleton, if_neg hlast]
  | cons l' lines ih =>
    have hl' : IsLine l' := hlines l' (List.mem_cons_self ..)
    have hih := ih hl' fun l'' hl'' => hlines l'' (List.mem_cons_of_mem _ hl'')
    have hjoin : joinLines l (l' :: lines) = (l ++ [13]) ++ 10 :: joinLines l' lines := by
      rw [joinLines_cons]
      simp [crlf]
    have hlf : (10 : UInt8) ∉ l ++ [13] := by simp [hl.lf]
    rw [splitCrlf] at hih
    rw [splitCrlf, hjoin, splitOn_append_cons hlf, List.map_cons, hih, if_pos (by simp),
      List.dropLast_concat]

end HapRust.Transport
