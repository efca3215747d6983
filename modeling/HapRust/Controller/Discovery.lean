import HapRust.Controller.Pair
import HapRust.Controller.SetupPayload

/-! Which of the accessories that are heard is the one a setup payload is for, and the
collection of what is heard until the caller has enough. An accessory can be heard more than
once: on both transports, with its identifier in upper case on one and in lower case on the
other. -/

namespace HapRust.Controller
open Lib

structure Sighting where
  accessory : Discovered
  paired : Bool
  category : UInt16
  setupHash : Option (Arr 4)
  deriving DecidableEq

def Sighting.id (d : Sighting) : String := d.accessory.id

def Sighting.key (d : Sighting) : String := toAsciiLowercase d.id

inductive PayloadMatch where
  | exact
  | category
  deriving DecidableEq, Repr

inductive Selection where
  | one (d : Sighting)
  | none
  | ambiguous (ids : List String)
  deriving DecidableEq

/-! ## Matching -/

section
variable (sha512 : Bytes → Bytes)

def setupHash (setupId deviceId : String) : Bytes :=
  (sha512 (asBytes setupId ++ asBytes deviceId)).take 4

def SetupPayload.matchKind (payload : SetupPayload) (d : Sighting) : Option PayloadMatch :=
  match payload.setupId, d.setupHash with
  | some setupId, some h =>
    if setupHash sha512 setupId d.id = h.val ∨
        setupHash sha512 setupId (toAsciiUppercase d.id) = h.val then some .exact
    else none
  | _, _ => if d.category = payload.category then some .category else none

def ofKind (kind : PayloadMatch) (found : List Sighting) (payload : SetupPayload) : List Sighting :=
  (found.filter fun d => !d.paired).filter fun d => payload.matchKind sha512 d == some kind

def selectMatch (found : List Sighting) (payload : SetupPayload) : Selection :=
  let exact := ofKind sha512 .exact found payload
  if h : exact.length = 1 then .one exact[0]
  else if 1 < exact.length then .ambiguous (exact.map Sighting.id)
  else
    let cat := ofKind sha512 .category found payload
    if cat.length = 0 then .none
    else if h : cat.length = 1 then .one cat[0]
    else .ambiguous (cat.map Sighting.id)

/-! ## What is selected -/

def matching (found : List Sighting) (payload : SetupPayload) : List Sighting :=
  (found.filter fun d => !d.paired).filter fun d => (payload.matchKind sha512 d).isSome

def candidates (found : List Sighting) (payload : SetupPayload) : List Sighting :=
  if ofKind sha512 .exact found payload = [] then ofKind sha512 .category found payload
  else ofKind sha512 .exact found payload

def choose : List Sighting → Selection
  | [] => .none
  | [d] => .one d
  | ds => .ambiguous (ds.map Sighting.id)

/-- The same choice, or the same candidates. -/
inductive Selection.Same : Selection → Selection → Prop
  | one (d : Sighting) : Same (.one d) (.one d)
  | none : Same .none .none
  | ambiguous {ids ids' : List String} (h : ids.Perm ids') : Same (.ambiguous ids) (.ambiguous ids')

theorem choose_of_one {ds : List Sighting} (h : ds.length = 1) : choose ds = .one ds[0] := by
  obtain ⟨d, rfl⟩ := List.length_eq_one_iff.mp h
  rfl

theorem choose_of_more {ds : List Sighting} (h : 1 < ds.length) :
    choose ds = .ambiguous (ds.map Sighting.id) := by
  rcases ds with _ | ⟨a, _ | ⟨b, ds⟩⟩
  · cases h
  · exact absurd h (by simp)
  · rfl

theorem selectMatch_eq (found : List Sighting) (payload : SetupPayload) :
    selectMatch sha512 found payload = choose (candidates sha512 found payload) := by
  unfold selectMatch candidates
  dsimp only
  by_cases hnone : ofKind sha512 .exact found payload = []
  · have hzero : (ofKind sha512 .exact found payload).length = 0 := List.length_eq_zero_iff.mpr hnone
    rw [dif_neg (by omega), if_neg (by omega), if_pos hnone]
    split_ifs with hcat hsingle
    · rw [List.length_eq_zero_iff.mp hcat]
      rfl
    · exact (choose_of_one hsingle).symm
    · exact (choose_of_more (by omega)).symm
  · have hpos := List.length_pos_of_ne_nil hnone
    rw [if_neg hnone]
    split_ifs with hsingle hmany
    · exact (choose_of_one hsingle).symm
    · exact (choose_of_more hmany).symm
    all_goals omega

end

section
variable {sha512 : Bytes → Bytes} {found found' : List Sighting} {payload : SetupPayload}

theorem choose_eq_one {ds : List Sighting} {d : Sighting} : choose ds = .one d ↔ ds = [d] := by
  rcases ds with _ | ⟨a, _ | ⟨b, ds⟩⟩ <;> simp [choose]

theorem choose_perm {ds ds' : List Sighting} (h : ds.Perm ds') :
    (choose ds).Same (choose ds') := by
  rcases ds with _ | ⟨a, _ | ⟨b, ds⟩⟩
  · rw [← h.nil_eq]
    exact .none
  · rw [List.perm_singleton.mp h.symm]
    exact .one a
  · have hlength := h.length_eq
    rcases ds' with _ | ⟨a', _ | ⟨b', ds'⟩⟩
    · cases hlength
    · cases hlength
    · exact .ambiguous (h.map Sighting.id)

theorem ofKind_perm (kind : PayloadMatch) (h : found.Perm found') :
    (ofKind sha512 kind found payload).Perm (ofKind sha512 kind found' payload) :=
  (h.filter _).filter _

theorem candidates_perm (h : found.Perm found') :
    (candidates sha512 found payload).Perm (candidates sha512 found' payload) := by
  have hexact : (ofKind sha512 .exact found payload).Perm (ofKind sha512 .exact found' payload) :=
    ofKind_perm .exact h
  unfold candidates
  by_cases hnone : ofKind sha512 .exact found payload = []
  · have hnone' : ofKind sha512 .exact found' payload = [] := by
      rw [hnone] at hexact
      exact hexact.nil_eq.symm
    rw [if_pos hnone, if_pos hnone']
    exact ofKind_perm .category h
  · have hnone' : ofKind sha512 .exact found' payload ≠ [] := by
      intro h'
      rw [h'] at hexact
      exact hnone hexact.eq_nil
    rw [if_neg hnone, if_neg hnone']
    exact hexact

theorem mem_matching {d : Sighting} : d ∈ matching sha512 found payload ↔
    d ∈ found ∧ d.paired = false ∧ (payload.matchKind sha512 d).isSome = true := by
  rw [matching, List.mem_filter, List.mem_filter, and_assoc, Bool.not_eq_true']

theorem mem_ofKind {kind : PayloadMatch} {d : Sighting} : d ∈ ofKind sha512 kind found payload ↔
    d ∈ found ∧ d.paired = false ∧ payload.matchKind sha512 d = some kind := by
  rw [ofKind, List.mem_filter, List.mem_filter, and_assoc, Bool.not_eq_true', beq_iff_eq]

theorem kind_of_mem_candidates {d e : Sighting} (hd : d ∈ candidates sha512 found payload)
    (he : e ∈ found) (hpaired : e.paired = false)
    (hkind : payload.matchKind sha512 e = some .exact) :
    payload.matchKind sha512 d = some .exact := by
  have hexact : e ∈ ofKind sha512 .exact found payload := mem_ofKind.mpr ⟨he, hpaired, hkind⟩
  rw [candidates, if_neg (List.ne_nil_of_mem hexact)] at hd
  exact (mem_ofKind.mp hd).2.2

theorem matching_of_mem_candidates {d : Sighting} (h : d ∈ candidates sha512 found payload) :
    d ∈ matching sha512 found payload := by
  have hkind : ∃ kind, d ∈ ofKind sha512 kind found payload := by
    unfold candidates at h
    split_ifs at h
    · exact ⟨_, h⟩
    · exact ⟨_, h⟩
  obtain ⟨kind, hd⟩ := hkind
  obtain ⟨hfound, hpaired, hkind⟩ := mem_ofKind.mp hd
  exact mem_matching.mpr ⟨hfound, hpaired, by rw [hkind]; rfl⟩

theorem candidates_ne_nil (h : matching sha512 found payload ≠ []) :
    candidates sha512 found payload ≠ [] := by
  obtain ⟨d, hd⟩ := List.exists_mem_of_ne_nil _ h
  obtain ⟨hfound, hpaired, hsome⟩ := mem_matching.mp hd
  obtain ⟨kind, hkind⟩ := Option.isSome_iff_exists.mp hsome
  have hmem : d ∈ ofKind sha512 kind found payload := mem_ofKind.mpr ⟨hfound, hpaired, hkind⟩
  unfold candidates
  split_ifs with hnone
  · cases kind with
    | exact =>
      rw [hnone] at hmem
      cases hmem
    | category => exact List.ne_nil_of_mem hmem
  · exact hnone

theorem selectMatch_of_unpaired
    (h : (found'.filter fun d => !d.paired) = found.filter fun d => !d.paired) :
    selectMatch sha512 found' payload = selectMatch sha512 found payload := by
  have hkind : ∀ kind, ofKind sha512 kind found' payload = ofKind sha512 kind found payload := by
    intro kind
    rw [ofKind, h]
    rfl
  rw [selectMatch_eq, selectMatch_eq, candidates, hkind, hkind]
  rfl

theorem selectMatch_eq_one {d : Sighting} :
    selectMatch sha512 found payload = .one d ↔ candidates sha512 found payload = [d] := by
  rw [selectMatch_eq, choose_eq_one]

theorem mem_candidates_of_one {d : Sighting} (h : candidates sha512 found payload = [d]) :
    d ∈ candidates sha512 found payload := by
  rw [h]
  exact List.mem_singleton_self d

theorem exists_one_of_few (hne : matching sha512 found payload ≠ [])
    (hfew : ¬ 2 ≤ (candidates sha512 found payload).length) :
    ∃ d ∈ matching sha512 found payload, selectMatch sha512 found payload = .one d := by
  have hlength : (candidates sha512 found payload).length = 1 := by
    have hpos := List.length_pos_of_ne_nil (candidates_ne_nil hne)
    omega
  obtain ⟨d, hd⟩ := List.length_eq_one_iff.mp hlength
  exact ⟨d, matching_of_mem_candidates (mem_candidates_of_one hd), selectMatch_eq_one.mpr hd⟩

end

/-- All that is heard and matches is of one accessory. -/
def OneAccessory (sha512 : Bytes → Bytes) (found : List Sighting) (payload : SetupPayload) : Prop :=
  ∀ a ∈ matching sha512 found payload, ∀ b ∈ matching sha512 found payload,
    eqIgnoreAsciiCase a.id b.id = true

/-- The selection does not depend on paired accessories or on the order, and prefers exact
matches. It is one of the sightings whenever they are all of one accessory, unless two of them
match equally well. -/
theorem selectMatch_sound_iff (sha512 : Bytes → Bytes) (found : List Sighting)
    (payload : SetupPayload) :
    ((∀ found', (found'.filter fun d => !d.paired) = (found.filter fun d => !d.paired) →
        selectMatch sha512 found' payload = selectMatch sha512 found payload) ∧
      (∀ found', found.Perm found' →
        (selectMatch sha512 found payload).Same (selectMatch sha512 found' payload)) ∧
      (∀ d e, selectMatch sha512 found payload = .one d → e ∈ found → e.paired = false →
        payload.matchKind sha512 e = some .exact → payload.matchKind sha512 d = some .exact) ∧
      (matching sha512 found payload ≠ [] → OneAccessory sha512 found payload →
        ∃ d ∈ matching sha512 found payload, selectMatch sha512 found payload = .one d)) ↔
    (2 ≤ (candidates sha512 found payload).length →
      ¬ OneAccessory sha512 found payload) := by
  constructor
  · rintro ⟨-, -, -, hone⟩ htwo hsame
    have hne : candidates sha512 found payload ≠ [] := by
      rintro hnil
      rw [hnil] at htwo
      cases htwo
    obtain ⟨c, hc⟩ := List.exists_mem_of_ne_nil _ hne
    obtain ⟨d, -, hd⟩ := hone (List.ne_nil_of_mem (matching_of_mem_candidates hc)) hsame
    rw [selectMatch_eq_one.mp hd, List.length_singleton] at htwo
    omega
  · intro hcond
    refine ⟨fun found' => selectMatch_of_unpaired, ?_, ?_, ?_⟩
    · intro found' hperm
      rw [selectMatch_eq, selectMatch_eq]
      exact choose_perm (candidates_perm hperm)
    · intro d e hd he hpaired hkind
      have hmem := mem_candidates_of_one (selectMatch_eq_one.mp hd)
      exact kind_of_mem_candidates hmem he hpaired hkind
    · intro hne hsame
      exact exists_one_of_few hne fun htwo => hcond htwo hsame

def heardTwice : List Sighting :=
  [{ accessory := .ip ⟨"AA:BB:CC:DD:EE:FF", ⟨.v4 (constArr 4 10), 80⟩⟩, paired := false, category := 5,
     setupHash := none },
   { accessory := .ble ⟨"peripheral", "aa:bb:cc:dd:ee:ff"⟩, paired := false, category := 5,
     setupHash := none }]

def bulbPayload : SetupPayload :=
  { setupCode := "11122333", category := 5, setupId := none, flags := ⟨true, true, false⟩ }

/-- They are reported as two. -/
theorem selectMatch_heardTwice :
    OneAccessory (fun m => m) heardTwice bulbPayload ∧
      selectMatch (fun m => m) heardTwice bulbPayload =
        .ambiguous ["AA:BB:CC:DD:EE:FF", "aa:bb:cc:dd:ee:ff"] := by
  constructor
  · unfold OneAccessory
    decide
  · decide

/-! ## Collecting -/

structure Collected (σ : Type) where
  out : List Sighting
  seen : List String
  stopState : σ

section
variable {σ : Type} (stop : σ → Sighting → Bool × σ)

def collectLoop : List Sighting → Collected σ → Collected σ
  | [], c => c
  | d :: rx, c =>
    if d.key ∈ c.seen then collectLoop rx c
    else
      let called := stop c.stopState d
      let c := { out := c.out ++ [d], seen := d.key :: c.seen, stopState := called.2 }
      if called.1 then c else collectLoop rx c

def collectUntil (s : σ) (rx : List Sighting) : List Sighting × σ :=
  let c := collectLoop stop rx ⟨[], [], s⟩
  (c.out, c.stopState)

def logged (s : σ × List Sighting) (d : Sighting) : Bool × σ × List Sighting :=
  ((stop s.1 d).1, (stop s.1 d).2, s.2 ++ [d])

def runStop (s : σ) (ds : List Sighting) : σ := ds.foldl (fun s d => (stop s d).2) s

/-- Called on one after the other, the predicate is true on the `k`th. -/
def HitAt (s : σ) (ds : List Sighting) (k : Nat) : Prop :=
  ∃ d, ds[k]? = some d ∧ (stop (runStop stop s (ds.take k)) d).1 = true

end

def firstOccurrences (rx : List Sighting) : List Sighting :=
  (rx.zipIdx.filter fun p => (rx.take p.2).all fun e => !eqIgnoreAsciiCase e.id p.1.id).map Prod.fst

theorem firstOccurrences_concat (rx : List Sighting) (d : Sighting) :
    firstOccurrences (rx ++ [d]) =
      firstOccurrences rx ++ if d.key ∈ rx.map Sighting.key then [] else [d] := by
  have hold : (rx.zipIdx.filter fun p =>
      ((rx ++ [d]).take p.2).all fun e => !eqIgnoreAsciiCase e.id p.1.id) =
      rx.zipIdx.filter fun p => (rx.take p.2).all fun e => !eqIgnoreAsciiCase e.id p.1.id := by
    apply List.filter_congr
    intro p hp
    have hlt : p.2 < rx.length := by simpa using List.snd_lt_of_mem_zipIdx hp
    rw [List.take_append_of_le_length hlt.le]
  have hnew : (rx.all fun e => !eqIgnoreAsciiCase e.id d.id) = true ↔
      d.key ∉ rx.map Sighting.key := by
    simp only [List.all_eq_true, Bool.not_eq_true', eqIgnoreAsciiCase, beq_eq_false_iff_ne,
      List.mem_map, not_exists, not_and]
    rfl
  rw [firstOccurrences, List.zipIdx_append, List.filter_append, hold, List.map_append]
  congr 1
  rw [Nat.zero_add, List.zipIdx_singleton, List.filter_cons, List.filter_nil, List.take_left]
  by_cases hmem : d.key ∈ rx.map Sighting.key
  · rw [if_pos hmem, if_neg (fun h => hnew.mp h hmem), List.map_nil]
  · rw [if_neg hmem, if_pos (hnew.mpr hmem)]
    rfl

theorem firstOccurrences_isPrefix (rx rest : List Sighting) :
    firstOccurrences rx <+: firstOccurrences (rx ++ rest) := by
  induction rest using List.reverseRecOn with
  | nil => rw [List.append_nil]
  | append_singleton rest d ih =>
    rw [← List.append_assoc, firstOccurrences_concat]
    exact ih.trans (List.prefix_append _ _)

section
variable {σ : Type} {stop : σ → Sighting → Bool × σ} {s : σ} {rx rest : List Sighting}

theorem hitAt_of_isPrefix {ds ds' : List Sighting} {k : Nat} (h : ds <+: ds') (hk : k < ds.length) :
    HitAt stop s ds' k ↔ HitAt stop s ds k := by
  obtain ⟨tail, rfl⟩ := h
  rw [HitAt, HitAt, List.getElem?_append_left hk, List.take_append_of_le_length hk.le]

theorem not_hitAt_of_le {ds : List Sighting} {k : Nat} (hk : ds.length ≤ k) : ¬ HitAt stop s ds k := by
  rintro ⟨d, hd, -⟩
  rw [List.getElem?_eq_none hk] at hd
  cases hd

structure Pending (stop : σ → Sighting → Bool × σ) (s : σ) (rx : List Sighting) (c : Collected σ) :
    Prop where
  out : c.out = firstOccurrences rx
  seen : ∀ key, key ∈ c.seen ↔ key ∈ rx.map Sighting.key
  state : c.stopState = runStop stop s c.out
  no_hit : ∀ k, ¬ HitAt stop s (firstOccurrences rx) k

/-- What it has done when it is over. -/
structure Complete (stop : σ → Sighting → Bool × σ) (s : σ) (rx : List Sighting) (out : List Sighting)
    (state : σ) : Prop where
  returned : (∃ k, HitAt stop s (firstOccurrences rx) k ∧
      (∀ j < k, ¬ HitAt stop s (firstOccurrences rx) j) ∧
      out = (firstOccurrences rx).take (k + 1)) ∨
    ((∀ k, ¬ HitAt stop s (firstOccurrences rx) k) ∧ out = firstOccurrences rx)
  state : state = runStop stop s out

theorem runStop_concat (ds : List Sighting) (d : Sighting) :
    runStop stop s (ds ++ [d]) = (stop (runStop stop s ds) d).2 := by
  rw [runStop, List.foldl_append]
  rfl

theorem hitAt_concat {ds : List Sighting} {d : Sighting} :
    HitAt stop s (ds ++ [d]) ds.length ↔ (stop (runStop stop s ds) d).1 = true := by
  rw [HitAt, List.take_left, List.getElem?_append_right le_rfl, Nat.sub_self]
  simp only [List.getElem?_cons_zero, Option.some.injEq, exists_eq_left']

section
variable {c : Collected σ} {d : Sighting}

theorem Pending.skip (h : Pending stop s rx c) (hseen : d.key ∈ c.seen) :
    Pending stop s (rx ++ [d]) c := by
  have hmem := (h.seen d.key).mp hseen
  have hfirst : firstOccurrences (rx ++ [d]) = firstOccurrences rx := by
    rw [firstOccurrences_concat, if_pos hmem, List.append_nil]
  refine ⟨hfirst ▸ h.out, fun key => ?_, h.state, hfirst ▸ h.no_hit⟩
  rw [h.seen, List.map_append, List.mem_append, List.map_singleton, List.mem_singleton]
  exact ⟨.inl, fun hkey => hkey.elim id fun heq => heq ▸ hmem⟩

theorem Pending.first (h : Pending stop s rx c) (hseen : d.key ∉ c.seen) :
    firstOccurrences (rx ++ [d]) = firstOccurrences rx ++ [d] := by
  rw [firstOccurrences_concat, if_neg fun hmem => hseen ((h.seen d.key).mpr hmem)]

theorem Pending.push (h : Pending stop s rx c) (hseen : d.key ∉ c.seen)
    (hmiss : (stop c.stopState d).1 = false) :
    Pending stop s (rx ++ [d]) ⟨c.out ++ [d], d.key :: c.seen, (stop c.stopState d).2⟩ := by
  refine ⟨?_, fun key => ?_, ?_, fun k hit => ?_⟩
  · rw [h.first hseen, h.out]
  · rw [List.mem_cons, h.seen, List.map_append, List.mem_append, List.map_singleton,
      List.mem_singleton]
    exact or_comm
  · rw [runStop_concat, ← h.state]
  · rw [h.first hseen] at hit
    rcases Nat.lt_trichotomy k (firstOccurrences rx).length with hlt | rfl | hgt
    · exact h.no_hit k ((hitAt_of_isPrefix (List.prefix_append _ _) hlt).mp hit)
    · rw [hitAt_concat, ← h.out, ← h.state, hmiss] at hit
      cases hit
    · refine not_hitAt_of_le ?_ hit
      rw [List.length_append, List.length_singleton]
      exact hgt

theorem Pending.hit (h : Pending stop s rx c) (hseen : d.key ∉ c.seen)
    (hhit : (stop c.stopState d).1 = true) :
    Complete stop s (rx ++ d :: rest) (c.out ++ [d]) (stop c.stopState d).2 := by
  have hpart : firstOccurrences rx ++ [d] <+: firstOccurrences (rx ++ d :: rest) := by
    have hpart := firstOccurrences_isPrefix (rx ++ [d]) rest
    rwa [h.first hseen, List.append_assoc] at hpart
  refine ⟨.inl ⟨(firstOccurrences rx).length, ?_, fun j hj => ?_, ?_⟩, ?_⟩
  · rw [hitAt_of_isPrefix hpart (by simp), hitAt_concat, ← h.out, ← h.state, hhit]
  · rw [hitAt_of_isPrefix ((List.prefix_append _ _).trans hpart) hj]
    exact h.no_hit j
  · have htake := List.prefix_iff_eq_take.mp hpart
    rw [List.length_append, List.length_singleton] at htake
    rw [h.out, ← htake]
  · rw [runStop_concat, ← h.state]

theorem complete_collectLoop (h : Pending stop s rx c) :
    Complete stop s (rx ++ rest) (collectLoop stop rest c).out (collectLoop stop rest c).stopState := by
  induction rest generalizing rx c with
  | nil =>
    rw [List.append_nil, collectLoop]
    exact ⟨.inr ⟨h.no_hit, h.out⟩, h.state⟩
  | cons d rest ih =>
    have hassoc : rx ++ d :: rest = rx ++ [d] ++ rest := by rw [List.append_assoc]; rfl
    rw [collectLoop]
    split_ifs with hseen
    · rw [hassoc]
      exact ih (h.skip hseen)
    · dsimp only
      split_ifs with hhit
      · exact h.hit hseen hhit
      · rw [hassoc]
        exact ih (h.push hseen (Bool.eq_false_of_not_eq_true hhit))

end

theorem complete_collectUntil (stop : σ → Sighting → Bool × σ) (s : σ) (rx : List Sighting) :
    Complete stop s rx (collectUntil stop s rx).1 (collectUntil stop s rx).2 := by
  have hstart : Pending stop s [] ⟨[], [], s⟩ :=
    ⟨rfl, fun key => Iff.rfl, rfl, fun k => not_hitAt_of_le (Nat.zero_le k)⟩
  exact complete_collectLoop hstart

theorem Complete.unique {out out' : List Sighting} {state state' : σ}
    (h : Complete stop s rx out state) (h' : Complete stop s rx out' state') :
    out = out' ∧ state = state' := by
  have hout : out = out' := by
    rcases h.returned with ⟨k, hit, hbefore, rfl⟩ | ⟨hnone, rfl⟩
    · rcases h'.returned with ⟨k', hit', hbefore', rfl⟩ | ⟨hnone', -⟩
      · rcases Nat.lt_trichotomy k k' with hlt | rfl | hlt
        · exact absurd hit (hbefore' k hlt)
        · rfl
        · exact absurd hit' (hbefore k' hlt)
      · exact absurd hit (hnone' k)
    · rcases h'.returned with ⟨k', hit', -, -⟩ | ⟨-, rfl⟩
      · exact absurd hit' (hnone k')
      · rfl
  exact ⟨hout, by rw [h.state, h'.state, hout]⟩

theorem Complete.append {out : List Sighting} {state : σ} (h : Complete stop s rx out state)
    (hhit : ∃ k, HitAt stop s (firstOccurrences rx) k) (rest : List Sighting) :
    Complete stop s (rx ++ rest) out state := by
  have hpart := firstOccurrences_isPrefix rx rest
  refine ⟨?_, h.state⟩
  rcases h.returned with ⟨k, hit, hbefore, rfl⟩ | ⟨hnone, -⟩
  · have hk : k < (firstOccurrences rx).length := by
      by_contra hle
      exact not_hitAt_of_le (by omega) hit
    refine .inl ⟨k, (hitAt_of_isPrefix hpart hk).mpr hit, fun j hj => ?_, ?_⟩
    · rw [hitAt_of_isPrefix hpart (hj.trans hk)]
      exact hbefore j hj
    · obtain ⟨tail, htail⟩ := hpart
      rw [← htail, List.take_append_of_le_length hk]
  · obtain ⟨k, hit⟩ := hhit
    exact absurd hit (hnone k)

theorem collectLoop_logged (rx : List Sighting) (c : Collected σ) :
    collectLoop (logged stop) rx ⟨c.out, c.seen, (c.stopState, c.out)⟩ =
      ⟨(collectLoop stop rx c).out, (collectLoop stop rx c).seen,
        ((collectLoop stop rx c).stopState, (collectLoop stop rx c).out)⟩ := by
  induction rx generalizing c with
  | nil => rfl
  | cons d rx ih =>
    rw [collectLoop, collectLoop]
    split_ifs with hseen
    · exact ih c
    · dsimp only [logged]
      split_ifs with hhit
      · rfl
      · exact ih ⟨c.out ++ [d], d.key :: c.seen, (stop c.stopState d).2⟩

/-- The first occurrences come back, in order, up to the first on which the predicate is true, or
all of them. The predicate is called on those that come back, in order, and on nothing else, and
nothing that is heard after a hit matters. -/
theorem collectUntil_exact (stop : σ → Sighting → Bool × σ) (s : σ) (rx : List Sighting) :
    Complete stop s rx (collectUntil stop s rx).1 (collectUntil stop s rx).2 ∧
    collectUntil (logged stop) (s, []) rx =
      ((collectUntil stop s rx).1, (collectUntil stop s rx).2, (collectUntil stop s rx).1) ∧
    ((∃ k, HitAt stop s (firstOccurrences rx) k) →
      ∀ rest, collectUntil stop s (rx ++ rest) = collectUntil stop s rx) := by
  refine ⟨complete_collectUntil stop s rx, ?_, fun hhit rest => ?_⟩
  · have hlogged : collectLoop (logged stop) rx ⟨[], [], (s, [])⟩ = _ :=
      collectLoop_logged rx ⟨[], [], s⟩
    rw [collectUntil, hlogged]
    rfl
  · have hleft := complete_collectUntil stop s (rx ++ rest)
    have hright := (complete_collectUntil stop s rx).append hhit rest
    obtain ⟨hout, hstate⟩ := hleft.unique hright
    exact Prod.ext hout hstate

end

end HapRust.Controller
