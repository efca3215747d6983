import HapRust.Crypto.AfterError

/-! A Pair Setup client that is started again. It gives up the exchange that it was in and awaits
an M2, which makes no difference only while it awaits one anyway. -/

namespace HapRust.Crypto.PairSetupClient
open Lib Tlv8

variable {P : Primitives} {c c0 : PairSetupClient}

def missing : PairSetupState → String
  | .initial => "Pair Setup not started"
  | .awaitingM2 => "M2 missing salt"
  | .awaitingM4 _ _ => "M4 missing accessory proof M2"
  | .awaitingM6 _ => "M6 missing encrypted data"
  | .done => "Pair Setup already finished"

theorem handle_nil (c : PairSetupClient) :
    (c.handle P []).1 = .error (.encoding (missing c.state)) := by
  have hmap : parseTlv [] = .ok ⟨[]⟩ := rfl
  have herr : checkError ⟨[]⟩ = .ok () := rfl
  simp only [handle, hmap, herr, dispatch]
  cases hc : c.state with
  | awaitingM4 K M1 =>
    simp only [handleM4, hc]
    rfl
  | awaitingM6 K =>
    simp only [handleM6, hc]
    rfl
  | initial | awaitingM2 | done => rfl

theorem missing_eq_awaitingM2 {s : PairSetupState} (h : missing s = missing .awaitingM2) :
    s = .awaitingM2 := by
  cases s with
  | awaitingM2 => rfl
  | initial | awaitingM4 K M1 | awaitingM6 K | done => simp [missing] at h

theorem runs_starts (c : PairSetupClient) (n : Nat) :
    runs (after P) c (List.replicate (n + 1) .start) = c.start.2 := by
  induction n with
  | zero => rfl
  | succ n ih =>
    rw [List.replicate_succ', runs_snoc, ih]
    rfl

theorem start_eq_self (h : c.state = .awaitingM2) : c.start.2 = c := by
  obtain ⟨password, controller, srp, state⟩ := c
  subst h
  rfl

/-- Whatever has happened since its first start: started again any number of times, the client
sends M1 each time, and it answers all that comes after as it would have anyway if and only if
it was still awaiting an M2. -/
theorem starts_invisible_iff (P : Primitives) (c0 : PairSetupClient) (before : List PairSetupCall)
    (n : Nat) :
    let c := runs (after P) c0 (.start :: before)
    c.start.1 = c0.start.1 ∧
    ((∀ later, outputs (handle P) (runs (after P) c (List.replicate (n + 1) .start)) later =
        outputs (handle P) c later) ↔ c.state = .awaitingM2) := by
  intro c
  refine ⟨rfl, ?_⟩
  rw [runs_starts]
  constructor
  · intro h
    have hnil := h [[]]
    simp only [outputs, handle_nil, List.cons.injEq, Except.error.injEq, CryptoError.encoding.injEq,
      and_true] at hnil
    exact missing_eq_awaitingM2 hnil.symm
  · intro hstate later
    rw [start_eq_self hstate]

/-- Started again after its M3, the client refuses the M4 that it would have accepted. -/
theorem start_forgets_M2 :
    newWithPrivate "12345678" ⟨"controller", constArr 32 7⟩ [1] = .ok sampleSetup ∧
    outputs (handle plainPrimitives)
      (runs (after plainPrimitives) sampleSetup [.start, .handle sampleSetupM2]) [sampleSetupM4] =
        [.ok (.send sampleSetupM5)] ∧
    outputs (handle plainPrimitives)
      (runs (after plainPrimitives) sampleSetup [.start, .handle sampleSetupM2, .start])
        [sampleSetupM4] = [.error (.encoding "unexpected Pair Setup state")] := by
  decide +kernel

end HapRust.Crypto.PairSetupClient
