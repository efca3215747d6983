import HapRust.Ble.AnyLink

/-! What encrypted reads and writes do to the session over any link: how often a call tries, on
which sessions, and under which key and counter each fragment is sealed. -/

namespace HapRust.Ble
open Lib Tlv8 Crypto Routine

/-! ## Keys and counters -/

def mintedKeys (events : List Event) : List (Arr 32) :=
  events.filterMap fun
    | .minted keys => some keys.writeKey
    | _ => none

def countersUnder (key : Arr 32) (events : List Event) : List UInt64 :=
  events.filterMap fun
    | .sealed k counter _ => if k = key then some counter else none
    | _ => none

theorem mintedKeys_append (l l' : List Event) :
    mintedKeys (l ++ l') = mintedKeys l ++ mintedKeys l' := List.filterMap_append

theorem countersUnder_append (key : Arr 32) (l l' : List Event) :
    countersUnder key (l ++ l') = countersUnder key l ++ countersUnder key l' :=
  List.filterMap_append

theorem countersUnder_sealed (key k : Arr 32) (counter : UInt64) (frag : Bytes) :
    countersUnder key [.sealed k counter frag] = if k = key then [counter] else [] := by
  by_cases h : k = key <;> simp [countersUnder, h]

structure SecureState.Numbered (s : SecureState) : Prop where
  current : s.session.keys.writeKey ∈ mintedKeys s.events
  known : ∀ key, countersUnder key s.events ≠ [] → key ∈ mintedKeys s.events
  counted : ∀ key, countersUnder key s.events =
    (List.range (countersUnder key s.events).length).map UInt64.ofNat
  next : s.session.sendCounter = UInt64.ofNat (countersUnder s.session.keys.writeKey s.events).length

def SecureState.NumberedIfNew (s : SecureState) : Prop := (mintedKeys s.events).Nodup → s.Numbered

namespace SecureState
variable {s : SecureState}

theorem numberedIfNew_new (keys : SessionKeys) (generation : UInt64) :
    (new keys generation).NumberedIfNew := by
  intro _
  exact ⟨List.mem_singleton.mpr rfl, fun key h => absurd rfl h, fun key => rfl, rfl⟩

theorem Numbered.sealed (h : s.Numbered) (frag : Bytes) : (s.sealed frag).Numbered := by
  have hminted : mintedKeys (s.sealed frag).events = mintedKeys s.events :=
    (mintedKeys_append _ _).trans (List.append_nil _)
  have hcounters (key : Arr 32) : countersUnder key (s.sealed frag).events =
      countersUnder key s.events ++
        if s.session.keys.writeKey = key then [s.session.sendCounter] else [] := by
    rw [← countersUnder_sealed, ← countersUnder_append]
    rfl
  refine ⟨hminted ▸ h.current, fun key hkey => ?_, fun key => ?_, ?_⟩
  · rw [hminted]
    by_cases heq : s.session.keys.writeKey = key
    · rw [← heq]
      exact h.current
    · rw [hcounters, if_neg heq, List.append_nil] at hkey
      exact h.known key hkey
  · rw [hcounters]
    by_cases heq : s.session.keys.writeKey = key
    · rw [if_pos heq, List.length_append, List.length_singleton, List.range_succ, List.map_append,
        ← h.counted, h.next, heq]
      rfl
    · rw [if_neg heq, List.append_nil]
      exact h.counted key
  · show s.session.sendCounter + 1 =
      UInt64.ofNat (countersUnder s.session.keys.writeKey (s.sealed frag).events).length
    rw [hcounters, if_pos rfl, List.length_append, List.length_singleton, UInt64.ofNat_add,
      ← h.next]
    rfl

theorem NumberedIfNew.renewed (h : s.NumberedIfNew) (keys : SessionKeys) :
    (s.renewed keys).NumberedIfNew := by
  have hminted : mintedKeys (s.renewed keys).events = mintedKeys s.events ++ [keys.writeKey] :=
    mintedKeys_append _ _
  have hcounters (key : Arr 32) :
      countersUnder key (s.renewed keys).events = countersUnder key s.events :=
    (countersUnder_append _ _ _).trans (List.append_nil _)
  intro hnew
  rw [hminted, List.nodup_append] at hnew
  obtain ⟨hold, -, hdiffer⟩ := hnew
  have hs := h hold
  have hnone : countersUnder keys.writeKey s.events = [] := by
    by_contra hsome
    exact hdiffer _ (hs.known _ hsome) _ (List.mem_singleton.mpr rfl) rfl
  refine ⟨?_, fun key hkey => ?_, fun key => ?_, ?_⟩
  · rw [hminted]
    exact List.mem_append_right _ (List.mem_singleton.mpr rfl)
  · rw [hcounters] at hkey
    rw [hminted]
    exact List.mem_append_left _ (hs.known key hkey)
  · rw [hcounters]
    exact hs.counted key
  · rw [hcounters, show (s.renewed keys).session.keys = keys from rfl, hnone]
    rfl

theorem NumberedIfNew.frame (h : s.NumberedIfNew) {t : SecureState}
    (hsession : t.session = s.session) (hevents : t.events = s.events) : t.NumberedIfNew := by
  intro hnew
  rw [hevents] at hnew
  obtain ⟨hcurrent, hknown, hcounted, hnext⟩ := h hnew
  rw [← hsession] at hcurrent hnext
  rw [← hevents] at hcurrent hknown hcounted hnext
  exact ⟨hcurrent, hknown, hcounted, hnext⟩

theorem NumberedIfNew.note (h : s.NumberedIfNew) {t : SecureState} {e : Event}
    (hsession : t.session = s.session) (hevents : t.events = s.events ++ [e])
    (hminted : mintedKeys [e] = []) (hsealed : ∀ key, countersUnder key [e] = []) :
    t.NumberedIfNew := by
  have hkeys : mintedKeys t.events = mintedKeys s.events := by
    rw [hevents, mintedKeys_append, hminted, List.append_nil]
  have hcounters (key : Arr 32) : countersUnder key t.events = countersUnder key s.events := by
    rw [hevents, countersUnder_append, hsealed, List.append_nil]
  intro hnew
  rw [hkeys] at hnew
  obtain ⟨hcurrent, hknown, hcounted, hnext⟩ := h hnew
  refine ⟨?_, ?_, ?_, ?_⟩
  · rwa [hsession, hkeys]
  · intro key hkey
    rw [hcounters] at hkey
    rw [hkeys]
    exact hknown key hkey
  · intro key
    rw [hcounters]
    exact hcounted key
  · rwa [hsession, hcounters]

theorem NumberedIfNew.begun (h : s.NumberedIfNew) : s.begun.NumberedIfNew :=
  h.note rfl rfl rfl fun _ => rfl

theorem NumberedIfNew.failing (h : s.NumberedIfNew) : s.failing.NumberedIfNew :=
  h.note rfl rfl rfl fun _ => rfl

theorem stable_numberedIfNew : SecureM.Stable NumberedIfNew where
  sealed {s} frag h hnew := by
    have hminted : mintedKeys (s.sealed frag).events = mintedKeys s.events :=
      (mintedKeys_append _ _).trans (List.append_nil _)
    exact (h (hminted ▸ hnew)).sealed frag
  opened h hnew := ⟨(h hnew).current, (h hnew).known, (h hnew).counted, (h hnew).next⟩

end SecureState

namespace SecureM
open SecureState

theorem keeps_generation {I : SecureState → Prop} (h : ∀ s g, I s → I (s.heard g)) :
    Keeps I generation :=
  .bind (.ask _) fun x => .bind (.modify fun s hs => h s x.generation hs) fun _ => .pure _

theorem numbered_reviveIfStale : Keeps NumberedIfNew reviveIfStale := by
  have hgeneration : Keeps NumberedIfNew generation := keeps_generation fun _ _ hs => hs.frame rfl rfl
  refine .bind hgeneration fun g => .bind .get fun s => .ite (.pure ()) ?_
  refine .bind (.ask _) fun x => .bind (.lift _) fun keys => ?_
  refine .bind (.modify fun s hs => hs.renewed keys) fun _ => ?_
  exact .bind hgeneration fun g => .modify fun s hs => hs.frame rfl rfl

section
variable (P : Primitives) (uuid : String) (op : OpCode) (iid : UInt16) (body : Bytes)
  (fragSize : Nat)

theorem numbered_tryRequest :
    Keeps NumberedIfNew (tryRequest P uuid op iid body fragSize) := by
  refine .bind numbered_reviveIfStale fun _ => .bind (.modify fun s hs => hs.begun) fun _ => ?_
  refine .bind .get fun s => ?_
  refine .bind (keeps_requestSecure P uuid stable_numberedIfNew _ _ _ _ _).catching fun x => ?_
  refine .bind (.modify fun s hs => ?_) fun _ => .pure _
  split_ifs
  · exact hs
  · exact hs.failing

theorem numbered_attempts {α : Type} (settle : Response → Except BleError α) (left : Nat) :
    Keeps NumberedIfNew (attempts P uuid op iid body fragSize settle left) := by
  have hgeneration : Keeps NumberedIfNew generation := keeps_generation fun _ _ hs => hs.frame rfl rfl
  induction left with
  | zero =>
    refine .bind (numbered_tryRequest P uuid op iid body fragSize) fun x => ?_
    cases x with
    | ok resp => exact .lift _
    | error e => exact .lift _
  | succ left ih =>
    refine .bind (numbered_tryRequest P uuid op iid body fragSize) fun x => ?_
    cases x with
    | ok resp => exact .lift _
    | error e => exact .bind hgeneration fun g => .bind .get fun s => .ite ih (.lift _)

theorem numbered_run (call : Call) : Keeps NumberedIfNew (call.run P fragSize) := by
  cases call with
  | read uuid iid =>
    refine .bind ?_ fun _ => .pure ()
    exact .ite (numbered_attempts _ _ _ _ _ _ _ _) (.lift _)
  | write uuid iid value => exact .ite (numbered_attempts _ _ _ _ _ _ _ _) (.lift _)

end
end SecureM

theorem SecureState.numberedIfNew_steps (P : Primitives) (fragSize : Nat) {s t : SecureState}
    {calls : List (Call × List LinkReply)} (hs : s.NumberedIfNew)
    (h : steps (SecureState.perform P fragSize) s calls = some t) : t.NumberedIfNew := by
  refine steps_invariant (fun {s c t} hs hstep => ?_) calls hs h
  exact (SecureM.numbered_run P fragSize c.1).leaves (fun _ _ ht => ht) hs hstep

/-! ## Attempts -/

def Event.isAttempt : Event → Bool
  | attempt _ => true
  | _ => false

/-- What a call has done so far: at most `n` attempts, each but the first right after the one
before has failed and Pair Verify has made its session; and every fragment is sealed with the key
of the attempt it belongs to. -/
structure Tries (n : Nat) (new : List Event) : Prop where
  few : new.countP Event.isAttempt ≤ n
  renewed : ∀ before keys after, new = before ++ .attempt keys :: after →
    before.any Event.isAttempt = true → ∃ earlier, before = earlier ++ [.failed, .minted keys]
  own : ∀ before key counter frag after, new = before ++ .sealed key counter frag :: after →
    ∃ earlier keys since, before = earlier ++ .attempt keys :: since ∧
      since.any Event.isAttempt = false ∧ key = keys.writeKey

theorem concat_eq_append_cons {α : Type} {l before after : List α} {a b : α}
    (h : l ++ [a] = before ++ b :: after) :
    (before = l ∧ b = a ∧ after = []) ∨ ∃ rest, l = before ++ b :: rest := by
  rcases List.eq_nil_or_concat after with rfl | ⟨rest, c, rfl⟩
  · obtain ⟨rfl, hlast⟩ := List.append_inj' h rfl
    exact .inl ⟨rfl, (List.cons.inj hlast).1.symm, rfl⟩
  · have hsplit : l ++ [a] = (before ++ b :: rest) ++ [c] := by
      rw [h, List.concat_eq_append, List.append_assoc, List.cons_append]
    exact .inr ⟨rest, (List.append_inj' hsplit rfl).1⟩

namespace Tries
variable {n : Nat} {new : List Event}

theorem nil (n : Nat) : Tries n [] where
  few := Nat.zero_le n
  renewed before keys after h := by simp at h
  own before key counter frag after h := by simp at h

theorem mono (h : Tries n new) {m : Nat} (hle : n ≤ m) : Tries m new :=
  ⟨h.few.trans hle, h.renewed, h.own⟩

theorem note (h : Tries n new) {e : Event} (hattempt : ∀ keys, e ≠ .attempt keys)
    (hsealed : ∀ key counter frag, e ≠ .sealed key counter frag) : Tries n (new ++ [e]) where
  few := by
    have hnot : e.isAttempt = false := by
      cases e with
      | attempt keys => exact absurd rfl (hattempt keys)
      | _ => rfl
    rw [List.countP_append, List.countP_singleton, hnot]
    exact h.few
  renewed before keys after heq hany := by
    rcases concat_eq_append_cons heq with ⟨-, he, -⟩ | ⟨rest, hnew⟩
    · exact absurd he.symm (hattempt keys)
    · exact h.renewed before keys rest hnew hany
  own before key counter frag after heq := by
    rcases concat_eq_append_cons heq with ⟨-, he, -⟩ | ⟨rest, hnew⟩
    · exact absurd he.symm (hsealed key counter frag)
    · exact h.own before key counter frag rest hnew

theorem attempt (h : Tries n new) {keys : SessionKeys}
    (hnew : new.any Event.isAttempt = false ∨ ∃ earlier, new = earlier ++ [.failed, .minted keys]) :
    Tries (n + 1) (new ++ [.attempt keys]) where
  few := by
    rw [List.countP_append]
    exact Nat.add_le_add_right h.few 1
  renewed before keys' after heq hany := by
    rcases concat_eq_append_cons heq with ⟨rfl, he, -⟩ | ⟨rest, hold⟩
    · obtain rfl := Event.attempt.inj he
      rcases hnew with hnone | hlast
      · rw [hnone] at hany
        cases hany
      · exact hlast
    · exact h.renewed before keys' rest hold hany
  own before key counter frag after heq := by
    rcases concat_eq_append_cons heq with ⟨-, he, -⟩ | ⟨rest, hold⟩
    · cases he
    · exact h.own before key counter frag rest hold

theorem sealed (h : Tries n new) {earlier since : List Event} {keys : SessionKeys}
    (hnew : new = earlier ++ .attempt keys :: since) (hsince : since.any Event.isAttempt = false)
    (counter : UInt64) (frag : Bytes) : Tries n (new ++ [.sealed keys.writeKey counter frag]) where
  few := by
    rw [List.countP_append]
    exact h.few
  renewed before keys' after heq hany := by
    rcases concat_eq_append_cons heq with ⟨-, he, -⟩ | ⟨rest, hold⟩
    · cases he
    · exact h.renewed before keys' rest hold hany
  own before key counter' frag' after heq := by
    rcases concat_eq_append_cons heq with ⟨rfl, he, -⟩ | ⟨rest, hold⟩
    · obtain ⟨rfl, -, -⟩ := Event.sealed.inj he
      exact ⟨earlier, keys, since, hnew, hsince, rfl⟩
    · exact h.own before key counter' frag' rest hold

end Tries

namespace SecureState

/-- The link's generation has never gone down. -/
def Rising (s : SecureState) : Prop := s.generations.Pairwise (· ≤ ·)

def Since (past : List Event) (p : List Event → SecureState → Prop) (s : SecureState) : Prop :=
  s.Rising → ∃ new, s.events = past ++ new ∧ p new s

def Ready (n : Nat) (new : List Event) (s : SecureState) : Prop :=
  Tries n new ∧ (new.any Event.isAttempt = false ∨
    (∃ earlier, new = earlier ++ [.failed]) ∧ ∃ g ∈ s.generations, s.generation < g)

def Revived (n : Nat) (new : List Event) (s : SecureState) : Prop :=
  Tries n new ∧ (new.any Event.isAttempt = false ∨
    ∃ earlier, new = earlier ++ [.failed, .minted s.session.keys])

def Trying (n : Nat) (new : List Event) (s : SecureState) : Prop :=
  Tries n new ∧ ∃ earlier since, new = earlier ++ .attempt s.session.keys :: since ∧
    since.any Event.isAttempt = false

variable {past : List Event} {n : Nat} {s : SecureState} {p q : List Event → SecureState → Prop}

theorem Since.imp (h : Since past p s) (himp : ∀ new, p new s → q new s) : Since past q s := by
  intro hrising
  obtain ⟨new, hnew, hp⟩ := h hrising
  exact ⟨new, hnew, himp new hp⟩

theorem Since.note {t : SecureState} {e : Event} (h : Since past p s)
    (hgenerations : t.generations = s.generations) (hevents : t.events = s.events ++ [e])
    (himp : ∀ new, p new s → q (new ++ [e]) t) : Since past q t := by
  intro hrising
  rw [Rising, hgenerations] at hrising
  obtain ⟨new, hnew, hp⟩ := h hrising
  exact ⟨new ++ [e], by rw [hevents, hnew, List.append_assoc], himp new hp⟩

theorem Rising.of_heard {g : UInt64} (h : (s.heard g).Rising) :
    s.Rising ∧ ∀ g' ∈ s.generations, g' ≤ g := by
  obtain ⟨hrising, -, hle⟩ := List.pairwise_append.mp h
  exact ⟨hrising, fun g' hg' => hle g' hg' g (List.mem_singleton.mpr rfl)⟩

theorem Since.heard (h : Since past p s) {g : UInt64}
    (himp : (∀ g' ∈ s.generations, g' ≤ g) → ∀ new, p new s → q new (s.heard g)) :
    Since past q (s.heard g) := by
  intro hrising
  obtain ⟨hold, hle⟩ := hrising.of_heard
  obtain ⟨new, hnew, hp⟩ := h hold
  exact ⟨new, hnew, himp hle new hp⟩

theorem stable_trying : SecureM.Stable (Since past (Trying n)) where
  sealed {s} frag h := by
    refine h.note rfl rfl fun new hnew => ?_
    obtain ⟨htries, earlier, since, heq, hsince⟩ := hnew
    refine ⟨htries.sealed heq hsince _ frag, earlier,
      since ++ [.sealed s.session.keys.writeKey s.session.sendCounter frag], ?_, ?_⟩
    · rw [heq, List.append_assoc, List.cons_append]
      rfl
    · rw [List.any_append, hsince]
      rfl
  opened h := h.imp fun _ hnew => hnew

end SecureState

namespace SecureM
open SecureState

section
variable {past : List Event} {n : Nat} {s : SecureState}

theorem over_of_ready (h : Since past (Ready n) s) : Since past (fun new _ => Tries n new) s :=
  h.imp fun _ hnew => hnew.1

theorem over_of_revived (h : Since past (Revived n) s) : Since past (fun new _ => Tries n new) s :=
  h.imp fun _ hnew => hnew.1

theorem ready_heard (h : Since past (Ready n) s) (g : UInt64) :
    Since past (Ready n) (s.heard g) := by
  refine h.heard fun _ new hnew => ⟨hnew.1, hnew.2.imp id ?_⟩
  rintro ⟨hfailed, g', hg', hlt⟩
  exact ⟨hfailed, g', List.mem_append_left _ hg', hlt⟩

theorem revived_of_fresh (h : Since past (Ready n) s) {g : UInt64} (hfresh : g ≤ s.generation) :
    Since past (Revived n) (s.heard g) := by
  refine h.heard fun hle new hnew => ⟨hnew.1, ?_⟩
  rcases hnew.2 with hnone | ⟨-, g', hg', hlt⟩
  · exact .inl hnone
  · exact absurd hfresh (UInt64.not_le.mpr (UInt64.lt_of_lt_of_le hlt (hle g' hg')))

theorem revived_renewed (h : Since past (Ready n) s) (keys : SessionKeys) :
    Since past (Revived n) (s.renewed keys) := by
  refine h.note rfl rfl fun new hnew => ⟨hnew.1.note (by simp) (by simp), ?_⟩
  rcases hnew.2 with hnone | ⟨⟨earlier, rfl⟩, -⟩
  · left
    rw [List.any_append, hnone]
    rfl
  · right
    exact ⟨earlier, by rw [List.append_assoc]; rfl⟩

end

def Revival (past : List Event) (n : Nat) : Except BleError Unit → SecureState → Prop
  | .ok _, s => Since past (Revived n) s
  | .error _, s => Since past (fun new _ => Tries n new) s

section
variable {past : List Event} {n : Nat}

theorem revival_revive : Triple (Since past (Ready n)) revive
    (Since past fun new _ => Tries n new) (Revival past n) := by
  have hask : Triple (Since past (Ready n)) (ask .verify : SecureM LinkReply)
      (Since past fun new _ => Tries n new) fun _ => Since past (Ready n) :=
    .ask (fun s hs => over_of_ready hs) fun _ _ hs => hs
  refine .bind hask (fun x => ?_) fun _ s hs => over_of_ready hs
  have hlift : Triple (Since past (Ready n)) (lift x.verified : SecureM SessionKeys)
      (Since past fun new _ => Tries n new) fun _ => Since past (Ready n) := .lift fun _ hs => hs
  refine .bind hlift (fun keys => ?_) fun _ s hs => over_of_ready hs
  have hrenew : Triple (Since past (Ready n)) (modify (·.renewed keys) : SecureM Unit)
      (Since past fun new _ => Tries n new) fun _ => Since past (Revived n) :=
    .modify fun s hs => revived_renewed hs keys
  refine .bind hrenew (fun _ => ?_) fun _ s hs => over_of_revived hs
  constructor
  · exact fun s hs => .ask (over_of_revived hs) fun _ => .ret _
  · intro s hs x
    have hheard : Since past (Revived n) (s.heard x.generation) := hs.heard fun _ _ hnew => hnew
    exact hheard

theorem revival_reviveIfStale : Triple (Since past (Ready n)) reviveIfStale
    (Since past fun new _ => Tries n new) (Revival past n) where
  asks s hs := by
    rw [reviveIfStale_eq]
    refine .ask (over_of_ready hs) fun x => ?_
    split_ifs
    · exact .ret _
    · exact revival_revive.asks _ (ready_heard hs x.generation)
  ends s hs := by
    rw [reviveIfStale_eq]
    intro x
    dsimp only
    split_ifs with hfresh
    · exact revived_of_fresh hs hfresh
    · exact revival_revive.ends _ (ready_heard hs x.generation)

def Tried (past : List Event) (n : Nat) (x : Except BleError (Except BleError Response))
    (s : SecureState) : Prop :=
  Since past (fun new _ => Tries n new ∧
    ((∃ e, x = .ok (.error e)) → ∃ earlier, new = earlier ++ [.failed])) s

theorem over_of_tried {x : Except BleError (Except BleError Response)} {s : SecureState}
    (h : Tried past n x s) : Since past (fun new _ => Tries n new) s :=
  h.imp fun _ hnew => hnew.1

theorem tried_of_over {x : Except BleError (Except BleError Response)} {s : SecureState}
    (hx : ∀ e, x ≠ .ok (.error e)) (h : Since past (fun new _ => Tries n new) s) :
    Tried past n x s := by
  refine h.imp fun _ hnew => ⟨hnew, ?_⟩
  rintro ⟨e, he⟩
  exact absurd he (hx e)

theorem ready_of_tried {e : BleError} {s : SecureState} (h : Tried past n (.ok (.error e)) s)
    {g : UInt64} (hstale : s.generation < g) : Since past (Ready n) (s.heard g) := by
  refine h.heard fun _ new hnew => ⟨hnew.1, .inr ⟨hnew.2 ⟨e, rfl⟩, g, ?_, hstale⟩⟩
  exact List.mem_append_right _ (List.mem_singleton.mpr rfl)

variable (P : Primitives) (uuid : String) (op : OpCode) (iid : UInt16) (body : Bytes)
  (fragSize : Nat)

theorem tried_tryRequest : Triple (Since past (Ready n)) (tryRequest P uuid op iid body fragSize)
    (Since past fun new _ => Tries (n + 1) new) (Tried past (n + 1)) := by
  have hmore (s : SecureState) (h : Since past (fun new _ => Tries n new) s) :
      Since past (fun new _ => Tries (n + 1) new) s := h.imp fun _ hnew => hnew.mono (Nat.le_succ n)
  have hover (s : SecureState) (h : Since past (Trying (n + 1)) s) :
      Since past (fun new _ => Tries (n + 1) new) s := h.imp fun _ hnew => hnew.1
  have hstop (e : BleError) (s : SecureState) (h : Since past (fun new _ => Tries (n + 1) new) s) :
      Tried past (n + 1) (.error e) s := tried_of_over (by simp) h
  refine .bind (revival_reviveIfStale.loosen hmore) (fun _ => ?_) fun e s hs =>
    hstop e s (hmore s hs)
  have hbegin : Triple (Since past (Revived n)) (modify (·.begun) : SecureM Unit)
      (Since past fun new _ => Tries (n + 1) new) fun _ => Since past (Trying (n + 1)) :=
    .modify fun s hs => hs.note rfl rfl fun new hnew =>
      ⟨hnew.1.attempt hnew.2, new, [], rfl, rfl⟩
  refine .bind hbegin (fun _ => ?_) fun e s hs => hstop e s (hover s hs)
  have hget : Triple (Since past (Trying (n + 1))) (get : SecureM SecureState)
      (Since past fun new _ => Tries (n + 1) new) fun _ => Since past (Trying (n + 1)) :=
    .get fun _ hs => hs
  refine .bind hget (fun s => ?_) fun e s hs => hstop e s (hover s hs)
  have hrequest := (keeps_requestSecure P uuid (stable_trying (n := n + 1)) op s.tid iid body
    fragSize).catching.loosen hover
  refine .bind hrequest (fun x => ?_) fun e s hs => hstop e s (hover s hs)
  have hsettle : Triple (Since past (Trying (n + 1)))
      (modify fun s => if x.isOk then s else s.failing : SecureM Unit)
      (Since past fun new _ => Tries (n + 1) new) fun _ => Tried past (n + 1) (.ok x) := by
    refine .modify fun s hs => ?_
    cases x with
    | ok resp => exact tried_of_over (by simp) (hover s hs)
    | error e =>
      exact hs.note rfl rfl fun new hnew => ⟨hnew.1.note (by simp) (by simp), fun _ => ⟨new, rfl⟩⟩
  exact .bind hsettle (fun _ => .pure fun _ hs => hs) fun e s hs => hstop e s (over_of_tried hs)

theorem tries_attempts {α : Type} (settle : Response → Except BleError α) (left : Nat) :
    Triple (Since past (Ready n)) (attempts P uuid op iid body fragSize settle left)
      (Since past fun new _ => Tries (n + 1 + left) new)
      fun _ => Since past fun new _ => Tries (n + 1 + left) new := by
  induction left generalizing n with
  | zero =>
    refine .bind (tried_tryRequest P uuid op iid body fragSize) (fun x => ?_) fun _ _ hs =>
      over_of_tried hs
    cases x with
    | ok resp => exact .lift fun _ hs => over_of_tried hs
    | error e => exact .lift fun _ hs => over_of_tried hs
  | succ left ih =>
    have hmore {s : SecureState} (h : Since past (fun new _ => Tries (n + 1) new) s) :
        Since past (fun new _ => Tries (n + 1 + (left + 1)) new) s :=
      h.imp fun _ hnew => hnew.mono (Nat.le_add_right _ _)
    refine .bind ((tried_tryRequest P uuid op iid body fragSize).loosen fun _ => hmore)
      (fun x => ?_) fun _ _ hs => hmore (over_of_tried hs)
    cases x with
    | ok resp => exact .lift fun _ hs => hmore (over_of_tried hs)
    | error e =>
      have hagain := ih (n := n + 1)
      rw [Nat.add_right_comm (n + 1), Nat.add_assoc (n + 1)] at hagain
      constructor
      · intro s hs
        rw [settled_again]
        refine .ask (hmore (over_of_tried hs)) fun y => ?_
        split_ifs with hstale
        · exact hagain.asks _ (ready_of_tried hs hstale)
        · exact .ret _
      · intro s hs
        rw [settled_again]
        intro y
        dsimp only
        split_ifs with hstale
        · exact hagain.ends _ (ready_of_tried hs hstale)
        · exact hmore ((over_of_tried hs).heard fun _ _ hnew => hnew)

theorem tries_run (call : Call) :
    Triple (fun s => s.events = past) (call.run P fragSize)
      (Since past fun new _ => Tries maxReviveRetries new)
      fun _ => Since past fun new _ => Tries maxReviveRetries new := by
  have hready (s : SecureState) (h : s.events = past) : Since past (Ready 0) s := fun _ =>
    ⟨[], by rw [h, List.append_nil], .nil 0, .inl rfl⟩
  have hnone (s : SecureState) (h : s.events = past) :
      Since past (fun new _ => Tries maxReviveRetries new) s := fun _ =>
    ⟨[], by rw [h, List.append_nil], .nil _⟩
  cases call with
  | read uuid iid =>
    have hread : Triple (fun s => s.events = past) (readCharRaw P fragSize uuid iid)
        (Since past fun new _ => Tries maxReviveRetries new)
        fun _ => Since past fun new _ => Tries maxReviveRetries new :=
      .ite (fun _ => (tries_attempts P _ _ _ _ _ _ _).strengthen hready) fun _ => .lift hnone
    exact .bind hread (fun _ => .pure fun _ hs => hs) fun _ _ hs => hs
  | write uuid iid value =>
    exact .ite (fun _ => (tries_attempts P _ _ _ _ _ _ _).strengthen hready) fun _ => .lift hnone

end
end SecureM

theorem map_ofNat_range_nodup {n : Nat} (h : n ≤ 2 ^ 64) :
    ((List.range n).map UInt64.ofNat).Nodup := by
  refine List.Nodup.map_on (fun i hi j hj heq => ?_) List.nodup_range
  have hlt {k : Nat} (hk : k ∈ List.range n) : k < 2 ^ 64 := (List.mem_range.mp hk).trans_le h
  rw [← UInt64.toNat_ofNat_of_lt' (hlt hi), heq, UInt64.toNat_ofNat_of_lt' (hlt hj)]

/-- Whatever the link does, as long as its generation does not go down: a read or a write tries
at most three times, each time but the first on a session that Pair Verify has made since the last
failure. And over any sequence of them, as long as Pair Verify makes new keys, no counter is used
twice for a key that has sealed at most `2 ^ 64` fragments. -/
theorem attempts_on_new_sessions (P : Primitives) (fragSize : Nat) :
    (∀ (s t : SecureState) call replies, s.perform P fragSize (call, replies) = some t →
      t.Rising → ∃ new, t.events = s.events ++ new ∧ Tries maxReviveRetries new) ∧
    ∀ keys generation calls t,
      steps (SecureState.perform P fragSize) (.new keys generation) calls = some t →
      (mintedKeys t.events).Nodup →
      ∀ key, (countersUnder key t.events).length ≤ 2 ^ 64 → (countersUnder key t.events).Nodup := by
  constructor
  · intro s t call replies hperform
    exact (SecureM.tries_run P fragSize call).leaves (fun _ _ ht => ht) rfl hperform
  · intro keys generation calls t hrun hnew key hlen
    have hnumbered := SecureState.numberedIfNew_steps P fragSize
      (SecureState.numberedIfNew_new keys generation) hrun hnew
    rw [hnumbered.counted key]
    exact map_ofNat_range_nodup hlen

/-! ## A link that loses a write -/

def firstKeys : SessionKeys := ⟨constArr 32 4, constArr 32 5⟩

def secondKeys : SessionKeys := ⟨constArr 32 6, constArr 32 7⟩

def LinkReply.at (generation : UInt64) : LinkReply :=
  ⟨generation, .ok secondKeys, .error .disconnected⟩

def lostWrites : List LinkReply := [.at 0, .at 0, .at 1, .at 1, .at 1, .at 1, .at 1, .at 1]

theorem attempts_on_new_sessions_lost :
    ∃ t, steps (SecureState.perform plainPrimitives 512) (.new firstKeys 0)
        [(.read "25" 9, lostWrites)] = some t ∧
      (∃ new, t.events = .minted firstKeys :: new ∧ new.countP Event.isAttempt = 2 ∧
        Tries maxReviveRetries new) ∧
      countersUnder secondKeys.writeKey t.events = [0] ∧
      (countersUnder secondKeys.writeKey t.events).Nodup := by
  obtain ⟨hattempts, hcounters⟩ := attempts_on_new_sessions plainPrimitives 512
  have hrun : (SecureState.perform plainPrimitives 512 (.new firstKeys 0)
      (.read "25" 9, lostWrites)).map (fun t => (t.generations, t.events)) =
        some ([0, 1, 1, 1, 1], [.minted firstKeys, .attempt firstKeys,
          .sealed firstKeys.writeKey 0 [0x00, 0x03, 1, 9, 0], .failed, .minted secondKeys,
          .attempt secondKeys, .sealed secondKeys.writeKey 0 [0x00, 0x03, 1, 9, 0], .failed]) := by
    decide +kernel
  obtain ⟨t, hperform, ht⟩ := Option.map_eq_some_iff.mp hrun
  obtain ⟨hgenerations, hevents⟩ := Prod.mk.inj ht
  have hsteps : steps (SecureState.perform plainPrimitives 512) (.new firstKeys 0)
      [(.read "25" 9, lostWrites)] = some t := by
    rw [steps, List.foldlM_cons, hperform]
    rfl
  refine ⟨t, hsteps, ?_, by rw [hevents]; decide +kernel, ?_⟩
  · obtain ⟨new, hnew, htries⟩ := hattempts _ _ _ _ hperform (by
      rw [SecureState.Rising, hgenerations]
      decide)
    refine ⟨new, hnew, ?_, htries⟩
    rw [hevents] at hnew
    have htail : _ = new := (List.cons.inj hnew).2
    rw [← htail]
    decide +kernel
  · refine hcounters _ _ _ _ hsteps ?_ _ ?_
    · rw [hevents]
      decide +kernel
    · rw [hevents]
      decide +kernel

/-! ## The counter comes round -/

def failedRead (iid : UInt64) : Call × List LinkReply := (.read "25" iid, List.replicate 3 (.at 0))

def SecureState.afterFailedRead (s : SecureState) (iid : UInt64) : SecureState :=
  { s with
    session := { s.session with sendCounter := s.session.sendCounter + 1 }
    tid := s.tid + 1
    generations := s.generations ++ [0, 0]
    events := s.events ++ [.attempt s.session.keys,
      .sealed s.session.keys.writeKey s.session.sendCounter
        (encodeRequest .characteristicRead (s.tid + 1) (UInt16.ofNat iid.toNat) []), .failed] }

theorem perform_failedRead {s : SecureState} {iid : UInt64} (hiid : iid.toNat < 2 ^ 16)
    (hs : s.generation = 0) :
    s.perform plainPrimitives 512 (failedRead iid) = some (s.afterFailedRead iid) := by
  obtain ⟨session, tid, generation, generations, events⟩ := s
  obtain rfl : generation = 0 := hs
  have hrun : (⟨session, tid, 0, generations, events⟩ : SecureState).perform plainPrimitives 512
      (failedRead iid) = some
        { session := { session with sendCounter := session.sendCounter + 1 }
          tid := tid + 1
          generation := 0
          generations := generations ++ [0] ++ [0]
          events := events ++ [.attempt session.keys] ++ [.sealed session.keys.writeKey
            session.sendCounter (encodeRequest .characteristicRead (tid + 1)
              (UInt16.ofNat iid.toNat) [])] ++ [.failed] } := by
    rw [SecureState.perform, failedRead, Call.run, SecureM.readCharRaw, if_pos hiid]
    rfl
  rw [hrun, List.append_assoc, List.append_assoc, List.append_assoc]
  rfl

theorem zero_afterFailedRead {s : SecureState} (h : ∀ g ∈ s.generations, g = 0) (iid : UInt64) :
    ∀ g ∈ (s.afterFailedRead iid).generations, g = 0 := by
  intro g hg
  rcases List.mem_append.mp hg with hg | hg
  · exact h g hg
  · simpa using hg

theorem steps_failedReads {s : SecureState} (hs : s.generation = 0)
    (hzero : ∀ g ∈ s.generations, g = 0) (n : Nat) :
    ∃ t, steps (SecureState.perform plainPrimitives 512) s (List.replicate n (failedRead 9)) = some t ∧
      t.session = { s.session with sendCounter := s.session.sendCounter + UInt64.ofNat n } ∧
      t.generation = 0 ∧ (∀ g ∈ t.generations, g = 0) ∧ mintedKeys t.events = mintedKeys s.events ∧
      ∀ e ∈ s.events, e ∈ t.events := by
  induction n with
  | zero => exact ⟨s, rfl, by simp, hs, hzero, rfl, fun _ he => he⟩
  | succ n ih =>
    obtain ⟨t, hsteps, hsession, hgeneration, hgenerations, hminted, hevents⟩ := ih
    refine ⟨t.afterFailedRead 9, ?_, ?_, hgeneration, ?_, ?_, ?_⟩
    · rw [List.replicate_succ', steps_append, hsteps, Option.bind_some, steps, List.foldlM_cons,
        perform_failedRead (by decide) hgeneration]
      rfl
    · rw [SecureState.afterFailedRead, hsession, UInt64.ofNat_add, ← UInt64.add_assoc]
      rfl
    · exact zero_afterFailedRead hgenerations 9
    · rw [← hminted, SecureState.afterFailedRead, mintedKeys_append]
      exact List.append_nil _
    · exact fun e he => List.mem_append_left _ (hevents e he)

/-- After `2 ^ 64` fragments the counter of a session begins again: another request is sealed with
the key and the counter of the first. -/
theorem counter_comes_round :
    ∃ calls t, steps (SecureState.perform plainPrimitives 512) (.new firstKeys 0) calls = some t ∧
      t.Rising ∧ (mintedKeys t.events).Nodup ∧ ∃ frag frag', frag ≠ frag' ∧
        .sealed firstKeys.writeKey 0 frag ∈ t.events ∧
        .sealed firstKeys.writeKey 0 frag' ∈ t.events := by
  let start := (SecureState.new firstKeys 0).afterFailedRead 9
  have hstart : ∀ g ∈ start.generations, g = 0 := zero_afterFailedRead (by simp [SecureState.new]) 9
  obtain ⟨t, hsteps, hsession, hgeneration, hgenerations, hminted, hevents⟩ :=
    steps_failedReads (s := start) rfl hstart (2 ^ 64 - 1)
  have hcounter : t.session.sendCounter = 0 := by
    rw [hsession]
    decide
  have hkeys : t.session.keys = firstKeys := by rw [hsession]; rfl
  have hfirst : steps (SecureState.perform plainPrimitives 512) (.new firstKeys 0) [failedRead 9] =
      some start := by
    rw [steps, List.foldlM_cons, perform_failedRead (by decide) rfl]
    rfl
  have hlast : steps (SecureState.perform plainPrimitives 512) t [failedRead 10] =
      some (t.afterFailedRead 10) := by
    rw [steps, List.foldlM_cons, perform_failedRead (by decide) hgeneration]
    rfl
  refine ⟨[failedRead 9] ++ List.replicate (2 ^ 64 - 1) (failedRead 9) ++ [failedRead 10],
    t.afterFailedRead 10, ?_, ?_, ?_, [0x00, 0x03, 1, 9, 0],
    encodeRequest .characteristicRead (t.tid + 1) (UInt16.ofNat (10 : UInt64).toNat) [], ?_, ?_, ?_⟩
  · rw [steps_append, steps_append, hfirst, Option.bind_some, hsteps, Option.bind_some, hlast]
  · have hzero := zero_afterFailedRead hgenerations 10
    refine List.pairwise_iff_forall_sublist.mpr fun {a b} hsub => ?_
    rw [hzero a (hsub.subset (by simp)), hzero b (hsub.subset (by simp))]
    exact UInt64.le_refl 0
  · have hone : mintedKeys (t.afterFailedRead 10).events = [firstKeys.writeKey] := by
      rw [SecureState.afterFailedRead, mintedKeys_append, hminted]
      rfl
    rw [hone]
    exact List.nodup_singleton _
  · intro heq
    have hiid : some (9 : UInt8) = some 10 := congrArg (·[3]?) heq
    cases hiid
  · exact List.mem_append_left _ (hevents _ (by decide +kernel))
  · refine List.mem_append_right _ ?_
    rw [hkeys, hcounter]
    exact List.mem_cons_of_mem _ (List.mem_cons_self ..)

end HapRust.Ble
