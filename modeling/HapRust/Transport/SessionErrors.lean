import HapRust.Transport.Session

/-! The errors that calls of a session return. Apart from a failure to seal, which does not
happen, they come from the end of the session: a failed write, the error with which the reader
task ended, or that there is no response because it has ended. -/

namespace HapRust.Transport
open Lib Crypto

def Phase.blocks : Phase → List Bytes
  | writing _ _ blocks => blocks
  | _ => []

def Phase.Good (Q : TransportError → Prop) (p : Phase) : Prop :=
  (∀ e, p = .returned (.error e) → Q e) ∧ ∀ b ∈ p.blocks, b.length ≤ maxBlock

theorem encryptFrame_ok {P : Primitives} (hP : P.chacha20Poly1305.Inverts) (key : Arr 32)
    (counter : UInt64) {block : Bytes} (h : block.length ≤ maxBlock) {e : TransportError}
    {counter' : UInt64} : encryptFrame P key counter block ≠ (.error e, counter') := by
  obtain ⟨c, hc, -⟩ := hP key (counterNonce counter) (leBytes 2 block.length) block
  have hlt : ¬ block.length > maxBlock := Nat.not_lt.mpr h
  simp [encryptFrame, hlt, encrypt, hc]

namespace SessionState
variable (P : Primitives) (key : Arr 32) (request : Nat → Request)

inductive Fails (s : SessionState) (c : Nat) : SessionAction → TransportError → Prop
  | write : Fails s c (.writeFails c) .io
  | noResponse (hdone : s.readerDone = true) : Fails s c (.noResponse c) .noResponse
  | sealing {block : Bytes} {e : TransportError} {counter : UInt64} (hblock : block ∈ (s.phase c).blocks)
      (hframe : encryptFrame P key s.counter block = (.error e, counter)) :
      Fails s c (.sealBlock c) e

inductive Effect (s : SessionState) : SessionAction → SessionState → Prop
  | goto {a : SessionAction} {t : SessionState} (c : Nat) (p : Phase)
      (hphase : t.phase = Function.update s.phase c p) (hchannel : t.channel = s.channel)
      (hdone : t.readerDone = s.readerDone) (hp : ∀ r, p ≠ .returned r)
      (hblocks : p.blocks ⊆ (s.phase c).blocks ∨
        ∃ q, p.blocks = chunks maxBlock (encodeRequest q)) : Effect s a t
  | fail {a : SessionAction} {t : SessionState} (c : Nat) {e : TransportError}
      (hphase : t.phase = Function.update s.phase c (.returned (.error e)))
      (hchannel : t.channel = s.channel) (hdone : t.readerDone = s.readerDone)
      (hcause : Fails P key s c a e) : Effect s a t
  | take {t : SessionState} (c : Nat) (result : Except TransportError HapResponse)
      (hphase : t.phase = Function.update s.phase c (.returned result))
      (hchannel : s.channel = result :: t.channel) (hdone : t.readerDone = s.readerDone) :
      Effect s (.take c) t
  | answer {a : SessionAction} {t : SessionState} (hphase : t.phase = s.phase)
      (hchannel : ∀ x ∈ t.channel, x ∈ s.channel ∨ ∃ r, x = .ok r)
      (hdone : t.readerDone = s.readerDone) : Effect s a t
  | readerFails (e : TransportError) :
      Effect s (.readerFails e) { s with channel := s.channel ++ [.error e], readerDone := true }
  | readerPanics : Effect s .readerPanics { s with readerDone := true }

variable {P key request} {s t : SessionState} {a : SessionAction}

theorem effect_of_step (h : s.step P key request a = some t) : Effect P key s a t := by
  cases moves_of_step h with
  | call hphase =>
    exact .goto _ .waiting rfl rfl rfl (fun r hr => by cases hr) (.inl (List.nil_subset _))
  | lockResponses hphase hfree =>
    exact .goto _ .locked rfl rfl rfl (fun r hr => by cases hr) (.inl (List.nil_subset _))
  | @lockWriter c hphase hfree =>
    exact .goto c _ rfl rfl rfl (fun r hr => by cases hr) (.inr ⟨request c, rfl⟩)
  | sealBlock hphase hframe =>
    refine .goto _ _ rfl rfl rfl (fun r hr => by cases hr) (.inl ?_)
    rw [hphase]
    exact List.subset_cons_self ..
  | sealFails hphase hframe =>
    refine .fail _ rfl rfl rfl (.sealing ?_ hframe)
    rw [hphase]
    exact List.mem_cons_self ..
  | accept hphase hpos hn =>
    refine .goto _ _ rfl rfl rfl (fun r hr => by cases hr) (.inl ?_)
    rw [hphase]
    exact List.Subset.refl _
  | writeFails c => exact .fail c rfl rfl rfl .write
  | flush hphase =>
    exact .goto _ .awaiting rfl rfl rfl (fun r hr => by cases hr) (.inl (List.nil_subset _))
  | answer r hlt => exact .answer rfl (fun x hx => .inl hx) rfl
  | @deliver r rest htransit hrun =>
    refine .answer rfl ?_ rfl
    intro x hx
    rcases List.mem_append.mp hx with hx | hx
    · exact .inl hx
    · exact .inr ⟨r, List.mem_singleton.mp hx⟩
  | readerFails e hrun => exact .readerFails e
  | readerPanics hrun => exact .readerPanics
  | take hphase hchannel => exact .take _ _ rfl hchannel rfl
  | noResponse hphase hchannel hdone => exact .fail _ rfl rfl rfl (.noResponse hdone)
  | drop c => exact .goto c .dropped rfl rfl rfl (fun r hr => by cases hr) (.inl (List.nil_subset _))

/-! ## Which errors there are -/

structure Errors (Q : TransportError → Prop) (s : SessionState) : Prop where
  phase : ∀ c, (s.phase c).Good Q
  channel : ∀ {e}, .error e ∈ s.channel → Q e ∧ s.readerDone = true

variable {Q : TransportError → Prop}

theorem errors_new : Errors Q new where
  phase c := ⟨fun e h => (by cases h), fun b h => (by cases h)⟩
  channel h := by cases h

theorem Errors.of_fails (h : Errors Q s) (hP : P.chacha20Poly1305.Inverts) {c : Nat}
    {e : TransportError} (hfails : Fails P key s c a e) :
    a = .writeFails c ∧ e = .io ∨ e = .noResponse ∧ s.readerDone = true := by
  cases hfails with
  | write => exact .inl ⟨rfl, rfl⟩
  | noResponse hdone => exact .inr ⟨rfl, hdone⟩
  | sealing hblock hframe =>
    exact absurd hframe (encryptFrame_ok hP key s.counter ((h.phase c).2 _ hblock))

theorem Errors.update (h : Errors Q s) {c : Nat} {p : Phase}
    (hphase : t.phase = Function.update s.phase c p) (hp : p.Good Q) (d : Nat) :
    (t.phase d).Good Q := by
  rw [hphase]
  exact (Function.forall_update_iff s.phase fun _ p => p.Good Q).mpr ⟨hp, fun d _ => h.phase d⟩ d

theorem Errors.of_effect (h : Errors Q s) (hP : P.chacha20Poly1305.Inverts) (hio : Q .io)
    (hnone : Q .noResponse) (hreader : ∀ e, a = .readerFails e → Q e)
    (heffect : Effect P key s a t) : Errors Q t := by
  cases heffect with
  | goto c p hphase hchannel hdone hp hblocks =>
    refine ⟨h.update hphase ⟨fun e he => absurd he (hp _), ?_⟩, ?_⟩
    · intro b hb
      rcases hblocks with hsub | ⟨q, hq⟩
      · exact (h.phase c).2 b (hsub hb)
      · rw [hq] at hb
        exact length_le_of_mem_chunks (by decide) hb
    · rw [hchannel, hdone]
      exact h.channel
  | @fail a t c e hphase hchannel hdone hcause =>
    have hQ : Q e := by
      rcases h.of_fails hP hcause with ⟨-, rfl⟩ | ⟨rfl, -⟩
      · exact hio
      · exact hnone
    refine ⟨h.update hphase ⟨?_, fun b hb => by cases hb⟩, ?_⟩
    · intro e' he
      cases he
      exact hQ
    · rw [hchannel, hdone]
      exact h.channel
  | take c result hphase hchannel hdone =>
    refine ⟨h.update hphase ⟨?_, fun b hb => by cases hb⟩, ?_⟩
    · intro e he
      cases he
      exact (h.channel (by rw [hchannel]; exact List.mem_cons_self ..)).1
    · intro e he
      rw [hdone]
      exact h.channel (by rw [hchannel]; exact List.mem_cons_of_mem _ he)
  | answer hphase hchannel hdone =>
    refine ⟨?_, ?_⟩
    · rw [hphase]
      exact h.phase
    · intro e he
      rw [hdone]
      rcases hchannel _ he with he | ⟨r, hr⟩
      · exact h.channel he
      · cases hr
  | readerFails e =>
    refine ⟨h.phase, ?_⟩
    intro e' he
    refine ⟨?_, rfl⟩
    rcases List.mem_append.mp he with he | he
    · exact (h.channel he).1
    · cases List.mem_singleton.mp he
      exact hreader e rfl
  | readerPanics => exact ⟨h.phase, fun he => ⟨(h.channel he).1, rfl⟩⟩

/-! ## Calls on a session that goes on -/

def Running (s : SessionState) (c : Nat) : Prop :=
  s.readerDone = false ∧ ∀ e, s.phase c ≠ .returned (.error e)

def spares (c : Nat) : SessionAction → Bool
  | .readerFails _ | .readerPanics => false
  | .writeFails d => d != c
  | _ => true

theorem Running.of_effect (h : Errors Q s) (hP : P.chacha20Poly1305.Inverts) {c : Nat}
    (hrun : s.Running c) (ha : spares c a = true) (heffect : Effect P key s a t) : t.Running c := by
  obtain ⟨hdone, herror⟩ := hrun
  cases heffect with
  | goto d p hphase hchannel hdone' hp hblocks =>
    refine ⟨hdone'.trans hdone, ?_⟩
    intro e he
    rw [hphase] at he
    by_cases hcd : c = d
    · subst hcd
      rw [Function.update_self] at he
      exact hp _ he
    · rw [Function.update_of_ne hcd] at he
      exact herror e he
  | fail d hphase hchannel hdone' hcause =>
    refine ⟨hdone'.trans hdone, ?_⟩
    intro e he
    rcases h.of_fails hP hcause with ⟨rfl, rfl⟩ | ⟨-, hover⟩
    · have hcd : c ≠ d := by
        rintro rfl
        simp [spares] at ha
      rw [hphase, Function.update_of_ne hcd] at he
      exact herror e he
    · rw [hdone] at hover
      cases hover
  | take d result hphase hchannel hdone' =>
    refine ⟨hdone'.trans hdone, ?_⟩
    intro e he
    rw [hphase] at he
    by_cases hcd : c = d
    · subst hcd
      rw [Function.update_self] at he
      cases he
      have hover := (h.channel (by rw [hchannel]; exact List.mem_cons_self ..)).2
      rw [hdone] at hover
      cases hover
    · rw [Function.update_of_ne hcd] at he
      exact herror e he
  | answer hphase hchannel hdone' =>
    refine ⟨hdone'.trans hdone, ?_⟩
    rw [hphase]
    exact herror
  | readerFails e => cases ha
  | readerPanics => cases ha

end SessionState
end HapRust.Transport
