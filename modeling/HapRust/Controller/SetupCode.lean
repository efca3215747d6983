import HapRust.Controller.Pair

/-! Setup codes. Over IP a code passes if it has eight digits, whatever stands
between them. Over BLE no code is refused: one that does not have eight digits is
the SRP password as it is. -/

namespace HapRust.Controller
open Lib Crypto Transport Pairing Ble

def hyphenated (digits : List Char) : String :=
  String.ofList (digits.take 3 ++ ['-'] ++ (digits.drop 3).take 2 ++ ['-'] ++ digits.drop 5)

/-- The code is these eight digits, bare or as `XXX-XX-XXX`. -/
structure IsForm (code : String) (digits : List Char) : Prop where
  length : digits.length = 8
  digit : ∀ ch ∈ digits, ch.isDigit = true
  form : code = String.ofList digits ∨ code = hyphenated digits

def digitsOf (code : String) : List Char := code.toList.filter Char.isDigit

theorem filter_digits {l : List Char} (h : ∀ ch ∈ l, ch.isDigit = true) :
    l.filter Char.isDigit = l := List.filter_eq_self.mpr h

theorem digitsOf_form {code : String} {digits : List Char} (h : IsForm code digits) :
    digitsOf code = digits := by
  have hpart : ∀ n, (digits.take n).filter Char.isDigit = digits.take n := fun n =>
    filter_digits fun ch hch => h.digit ch (List.mem_of_mem_take hch)
  have hrest : ∀ n, (digits.drop n).filter Char.isDigit = digits.drop n := fun n =>
    filter_digits fun ch hch => h.digit ch (List.mem_of_mem_drop hch)
  have hmid : ((digits.drop 3).take 2).filter Char.isDigit = (digits.drop 3).take 2 :=
    filter_digits fun ch hch => h.digit ch (List.mem_of_mem_drop (List.mem_of_mem_take hch))
  have hhyphen : ['-'].filter Char.isDigit = [] := by decide
  rcases h.form with rfl | rfl
  · rw [digitsOf, String.toList_ofList, filter_digits h.digit]
  · rw [digitsOf, hyphenated, String.toList_ofList]
    simp only [List.filter_append, hpart, hmid, hrest, hhyphen, List.append_nil]
    have hdrop : digits.drop 5 = (digits.drop 3).drop 2 := by rw [List.drop_drop]
    rw [List.append_assoc, hdrop, List.take_append_drop, List.take_append_drop]

theorem isForm_bare {digits : List Char} {code : String} (h : IsForm code digits) :
    IsForm (String.ofList digits) digits := ⟨h.length, h.digit, .inl rfl⟩

theorem password_of_form {code : String} {digits : List Char} (h : IsForm code digits) :
    Crypto.normalizeSetupCode code = hyphenated digits := by
  have hdigits : code.toList.filter Char.isDigit = digits := digitsOf_form h
  rw [Crypto.normalizeSetupCode, hdigits, if_pos h.length]
  rfl

theorem normalizeSetupCode_form {code : String} {digits : List Char} (h : IsForm code digits) :
    normalizeSetupCode code = .ok (String.ofList digits) := by
  have hdigits : code.toList.filter Char.isDigit = digits := digitsOf_form h
  rw [normalizeSetupCode, hdigits, if_pos h.length]

theorem normalizeSetupCode_error {code : String} (h : (digitsOf code).length ≠ 8) :
    normalizeSetupCode code = .error .invalidSetupCode := if_neg h

theorem normalizeSetupCode_ok {code : String} (h : (digitsOf code).length = 8) :
    normalizeSetupCode code = .ok (String.ofList (digitsOf code)) := if_pos h

def clientWith (password : String) (controller : ControllerKeypair) (a : Bytes) :
    Except CryptoError PairSetupClient := do
  let group ← hapGroup
  let srp ← SrpClient.withPrivate group PairSetup.username (beNat a)
  return ⟨password, controller, srp, .initial⟩

theorem newWithPrivate_eq (code : String) (controller : ControllerKeypair) (a : Bytes) :
    PairSetupClient.newWithPrivate code controller a =
      clientWith (Crypto.normalizeSetupCode code) controller a := rfl

def Discovered.isIp : Discovered → Bool
  | ip _ => true
  | ble _ => false

def PairCall.sends : PairCall → Bool
  | post _ => true
  | link (.op (.write _ _)) => true
  | _ => false

namespace HapController
variable (P : Primitives) (D : DbParsers) (c : HapController)

def setUpWith (password : String) (draws : Draws) : Discovered → PairM Progress
  | .ip accessory => do
    Controller.connect accessory.addr
    let pairing ← overIp do
      let client ← Asking.lift (mapErr .crypto (clientWith password c.keypair draws.a))
      let (pairing, _) ← setupLoop P (fun _ => Pairing.exchange pairSetupPath)
        (Asking.throw (.malformed "")) (fun e => Asking.throw (.crypto e)) 3 client
      pure pairing
    pure (.ip accessory.addr pairing)
  | .ble accessory => do
    let deviceId ← Asking.lift
      (okOr (parseDeviceId accessory.deviceId) (.unknownAccessory accessory.deviceId))
    connectGatt accessory.peripheralId
    let (pairing, s) ← overBle do
      let frag ← LinkM.ask .maxWrite (.ok ·.maxWrite)
      let iid ← LinkM.ask (.instanceId pairSetupChar) (·.instanceId)
      let task : BleM AccessoryPairing := do
        let client ← BleM.lift (mapErr .crypto (clientWith password c.keypair draws.a))
        let (pairing, _) ← setupLoop P
          (fun i out => Ble.exchange pairSetupChar (UInt8.ofNat (i + 1)) iid out frag)
          (BleM.throw (.malformedPdu "")) (fun e => BleM.throw (.crypto e)) 3 client
        pure pairing
      carryOut task .fresh
    pure (.ble deviceId pairing s)

/-- Pairing fails for the code alone: no message goes out, whatever the answers. -/
def RefusesCode (d : Discovered) (code : String) (draws : Draws) : Prop :=
  ∀ answers r, (c.pair P D d code draws).outcome answers = some r →
    r.1 = .error .invalidSetupCode ∧
      ∀ q ∈ (c.pair P D d code draws).transcript answers, q.1.sends = false

/-- The SRP password of the pairing is the label form of the digits. -/
def UsesPassword (d : Discovered) (code : String) (draws : Draws) (digits : List Char) : Prop :=
  c.pair P D d code draws =
    (c.setUpWith P (hyphenated digits) draws d >>= c.secure P D draws).endWith (c.keep D)

variable {P D c} {d : Discovered} {code : String} {draws : Draws} {digits : List Char}

theorem usesPassword_of_form (h : IsForm code digits) : UsesPassword P D c d code draws digits := by
  have hsetUp : c.setUp P code draws d = c.setUpWith P (hyphenated digits) draws d := by
    cases d with
    | ip accessory =>
      rw [setUp, normalizeSetupCode_form h]
      change (Controller.connect accessory.addr >>= fun _ =>
        overIp (runPairSetup P c.keypair (String.ofList digits) draws.a) >>= fun pairing =>
          pure (Progress.ip accessory.addr pairing)) = _
      rw [runPairSetup, newWithPrivate_eq, password_of_form (isForm_bare h)]
      rfl
    | ble accessory =>
      simp only [setUp, BleController.setUp, pairSetup, newWithPrivate_eq, password_of_form h]
      rfl
  rw [UsesPassword, pair_eq, hsetUp]

theorem refusesCode_ip {accessory : DiscoveredAccessory} (h : (digitsOf code).length ≠ 8) :
    RefusesCode P D c (.ip accessory) code draws := by
  have hret : c.pair P D (.ip accessory) code draws = .ret (.error .invalidSetupCode, c) := by
    rw [pair, pairIp, normalizeSetupCode_error h]
    rfl
  intro answers r hr
  rw [hret] at hr ⊢
  obtain ⟨rfl, rfl⟩ := Dialogue.outcome_ret_nil hr
  exact ⟨rfl, fun q hq => by cases hq⟩

theorem not_refusesCode (answers : List PairAnswer) {e : HapError}
    (h : (c.pair P D d code draws).outcome answers = some (.error e, c))
    (he : e ≠ .invalidSetupCode) : ¬ RefusesCode P D c d code draws := by
  intro hrefuses
  have hcode := (hrefuses answers _ h).1
  exact he (Except.error.inj hcode)

theorem not_refusesCode_ip {accessory : DiscoveredAccessory} (h : (digitsOf code).length = 8) :
    ¬ RefusesCode P D c (.ip accessory) code draws := by
  have hrun : (c.pair P D (.ip accessory) code draws).outcome
      [{ fine with connected := .error .connectionClosed }] =
        some (.error (.transport .connectionClosed), c) := by
    rw [pair, pairIp, normalizeSetupCode_ok h]
    rfl
  exact not_refusesCode _ hrun (by decide)

theorem not_refusesCode_ble {accessory : DiscoveredBleAccessory} :
    ¬ RefusesCode P D c (.ble accessory) code draws := by
  cases hid : parseDeviceId accessory.deviceId with
  | none =>
    have hrun : (c.pair P D (.ble accessory) code draws).outcome [] =
        some (.error (.unknownAccessory accessory.deviceId), c) := by
      rw [pair, pairBle, hid]
      rfl
    exact not_refusesCode _ hrun (by simp)
  | some deviceId =>
    have hrun : (c.pair P D (.ble accessory) code draws).outcome
        [{ fine with gattConnected := .error .disconnected }] =
          some (.error (.ble .disconnected), c) := by
      rw [pair, pairBle, hid]
      rfl
    exact not_refusesCode _ hrun (by decide)

/-- A code in neither form is refused, and one in either form gives its label form as the
password, exactly if the code is in one of the forms, or does not have eight digits and goes to
an accessory on the network. -/
theorem setup_code_checked_iff (P : Primitives) (D : DbParsers) (c : HapController)
    (d : Discovered) (code : String) (draws : Draws) :
    ((¬ (∃ digits, IsForm code digits) → RefusesCode P D c d code draws) ∧
      ∀ digits, IsForm code digits → UsesPassword P D c d code draws digits) ↔
    ((∃ digits, IsForm code digits) ∨ d.isIp = true ∧ (digitsOf code).length ≠ 8) := by
  constructor
  · rintro ⟨hrefuses, -⟩
    by_contra hcond
    obtain ⟨hform, hdigits⟩ := not_or.mp hcond
    cases d with
    | ip accessory =>
      have height : (digitsOf code).length = 8 := by
        by_contra hlength
        exact hdigits ⟨rfl, hlength⟩
      exact not_refusesCode_ip height (hrefuses hform)
    | ble accessory => exact not_refusesCode_ble (hrefuses hform)
  · intro hcond
    refine ⟨?_, fun digits hform => usesPassword_of_form hform⟩
    intro hform
    rcases hcond with h | ⟨hip, hdigits⟩
    · exact absurd h hform
    · cases d with
      | ip accessory => exact refusesCode_ip hdigits
      | ble accessory => cases hip

theorem not_isForm {code : String} (h : (digitsOf code).length ≠ 8) (digits : List Char) :
    ¬ IsForm code digits := by
  intro hform
  rw [digitsOf_form hform] at h
  exact h hform.length

/-- Pair Setup goes out to a sensor with four digits for a code, and to a lamp with a code
whose eight digits are otherwise separated. -/
theorem malformed_code_goes_out :
    (¬ (∃ digits, IsForm "1234" digits) ∧
      ¬ RefusesCode plainPrimitives plainParsers (sampleController .empty) sensor "1234"
        sampleDraws ∧
      (((sampleController .empty).pair plainPrimitives plainParsers sensor "1234"
        sampleDraws).transcript [fine, fine, fine, fine]).any (·.1.sends) = true) ∧
    (¬ (∃ digits, IsForm "12-34-56-78" digits) ∧
      ¬ RefusesCode plainPrimitives plainParsers (sampleController .empty) lamp "12-34-56-78"
        sampleDraws ∧
      (((sampleController .empty).pair plainPrimitives plainParsers lamp "12-34-56-78"
        sampleDraws).transcript [fine, fine]).any (·.1.sends) = true) := by
  refine ⟨⟨?_, not_refusesCode_ble, ?_⟩, ?_, not_refusesCode_ip (by decide +kernel), ?_⟩
  · rintro ⟨digits, hform⟩
    exact not_isForm (by decide +kernel) digits hform
  · decide +kernel
  · rintro ⟨digits, hform⟩
    have hdigits : digits = "12345678".toList := by
      rw [← digitsOf_form hform]
      decide +kernel
    subst hdigits
    rcases hform.form with h | h
    · revert h
      decide +kernel
    · revert h
      decide +kernel
  · decide +kernel

end HapController
end HapRust.Controller
