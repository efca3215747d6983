import HapRust.Ble.Connection

/-! If no reconnect begins between the start of a Pair Verify and the moment its
keys are stored, then a stored generation that is not behind means that the keys
were exchanged on the current link. -/

namespace HapRust.Ble
open Lib

theorem Pc.handshake_dropped (pc : Pc) : pc.dropped.handshake = none := by
  cases pc <;> rfl

namespace Connection
variable {s t : Connection} {links : List Nat} {since : UInt64}

structure Stamped (s : Connection) (links : List Nat) (since : UInt64) : Prop where
  le : since.toNat ≤ s.generation.toNat
  current : since = s.generation → s.reconnecting = false ∧ ∀ l ∈ links, l = s.link

structure Inv (s : Connection) : Prop where
  stored : ∀ {k}, s.secure = some k → s.Stamped k.links k.generation
  complete : ∀ {k}, s.secure = some k → minVerifyOps ≤ k.links.length
  handshake : ∀ {links since}, s.pc.handshake = some (links, since) → s.Stamped links since
  minted : ∀ {links since}, s.pc = .broadcastKey links since ∨ s.pc = .sampling links since →
    minVerifyOps ≤ links.length

theorem Stamped.reconnect (h : s.Stamped links since) (hmax : s.generation.toNat + 1 < 2 ^ 64)
    (attempts : Nat) :
    Stamped { s with
      attempts := attempts, generation := s.generation + 1, reconnecting := true, up := false }
      links since := by
  have hnext : (s.generation + 1).toNat = s.generation.toNat + 1 := by
    rw [UInt64.toNat_add]
    exact Nat.mod_eq_of_lt hmax
  have hle := h.le
  refine ⟨?_, ?_⟩
  · show since.toNat ≤ (s.generation + 1).toNat
    omega
  · intro heq
    have hsince : since.toNat = (s.generation + 1).toNat := congrArg UInt64.toNat heq
    omega

theorem Stamped.relink (h : s.Stamped links since) (hre : s.reconnecting = true) (link : Nat)
    (up : Bool) (attempts : Nat) :
    Stamped { s with link := link, up := up, attempts := attempts, reconnecting := false }
      links since := by
  refine ⟨h.le, ?_⟩
  intro heq
  have hfalse := (h.current heq).1
  rw [hre] at hfalse
  cases hfalse

theorem Stamped.snoc (h : s.Stamped links since) : s.Stamped (links ++ [s.link]) since := by
  refine ⟨h.le, ?_⟩
  intro heq
  obtain ⟨hre, hlinks⟩ := h.current heq
  refine ⟨hre, ?_⟩
  intro l hl
  rcases List.mem_append.mp hl with hl | hl
  · exact hlinks l hl
  · exact List.mem_singleton.mp hl

theorem Stamped.start (hre : s.reconnecting = false) : s.Stamped [] s.generation :=
  ⟨Nat.le_refl _, fun _ => ⟨hre, by simp⟩⟩

theorem Stamped.frame (h : s.Stamped links since) (up : Bool) (attempts : Nat) (pc : Pc)
    (secure : Option Secure) :
    Stamped { s with up := up, attempts := attempts, pc := pc, secure := secure } links since :=
  ⟨h.le, h.current⟩

theorem inv_new : Inv new where
  stored h := by cases h
  complete h := by cases h
  handshake h := by cases h
  minted h := by rcases h with h | h <;> cases h

theorem giveUp_eq_some (h : s.giveUp = some t) :
    ∃ pc, t = { s with pc := pc } ∧ (pc.handshake = none ∨
      ∃ links since, s.pc = .broadcastKey links since ∧ pc = .sampling links since) := by
  unfold giveUp at h
  split at h
  · exact ⟨.failed, (Option.some.inj h).symm, .inl rfl⟩
  · exact ⟨.failed, (Option.some.inj h).symm, .inl rfl⟩
  · exact ⟨.failed, (Option.some.inj h).symm, .inl rfl⟩
  · next links since hpc =>
    exact ⟨.sampling links since, (Option.some.inj h).symm, .inr ⟨links, since, hpc, rfl⟩⟩
  · exact ⟨.idle, (Option.some.inj h).symm, .inl rfl⟩
  · split_ifs at h
    · exact ⟨_, (Option.some.inj h).symm, .inl rfl⟩
    · exact ⟨_, (Option.some.inj h).symm, .inl rfl⟩
  · cases h

theorem Inv.goto (h : s.Inv) {pc : Pc} (hpc : pc.handshake = none) : Inv { s with pc := pc } where
  stored hk := (h.stored hk).frame ..
  complete hk := h.complete hk
  handshake hp := by
    rw [show pc.handshake = some _ from hp] at hpc
    cases hpc
  minted hp := by
    rcases hp with hp | hp
    · rw [show pc = _ from hp] at hpc
      cases hpc
    · rw [show pc = _ from hp] at hpc
      cases hpc

theorem Inv.shake (h : s.Inv) {pc : Pc} (hpc : pc.handshake = some (links, since))
    (hstamp : s.Stamped links since) (hlen : ¬ pc.usesGatt = true ∨ pc = .broadcastKey links since →
      minVerifyOps ≤ links.length) : Inv { s with pc := pc } where
  stored hk := (h.stored hk).frame ..
  complete hk := h.complete hk
  handshake {links' since'} hp := by
    obtain ⟨rfl, rfl⟩ := Prod.mk.inj (Option.some.inj (hpc.symm.trans hp))
    exact hstamp.frame ..
  minted {links' since'} hp := by
    rcases hp with hp | hp
    · obtain rfl : pc = _ := hp
      obtain ⟨rfl, rfl⟩ := Prod.mk.inj (Option.some.inj hpc)
      exact hlen (.inr rfl)
    · obtain rfl : pc = _ := hp
      obtain ⟨rfl, rfl⟩ := Prod.mk.inj (Option.some.inj hpc)
      exact hlen (.inl (by simp [Pc.usesGatt]))

theorem Inv.giveUp (h : s.Inv) (ht : s.giveUp = some t) : t.Inv := by
  obtain ⟨pc, rfl, hpc | ⟨links, since, hs, rfl⟩⟩ := giveUp_eq_some ht
  · exact h.goto hpc
  · have hstamp : s.Stamped links since := h.handshake (by rw [hs]; rfl)
    have hlen : minVerifyOps ≤ links.length := h.minted (.inl hs)
    exact h.shake rfl hstamp (fun _ => hlen)

theorem Inv.store (h : s.Inv) {pc : Pc} (hs : s.Stamped links since)
    (hgen : s.generation = since) (hlen : minVerifyOps ≤ links.length)
    (hpc : pc.handshake = none) : Inv (s.store links pc) := by
  subst hgen
  have hgoto := h.goto hpc
  refine ⟨?_, ?_, fun hp => (hgoto.handshake hp).frame .., hgoto.minted⟩
  · intro k hk
    obtain rfl := Option.some.inj hk
    exact hs.frame ..
  · intro k hk
    obtain rfl := Option.some.inj hk
    exact hlen

theorem Inv.done (h : s.Inv) (hre : s.reconnecting = false) (hcond : s.Undisturbed .stepOk)
    (ht : s.done = some t) : t.Inv := by
  unfold Connection.done at ht
  unfold Undisturbed at hcond
  split at ht
  · obtain rfl := Option.some.inj ht
    exact h.shake rfl (Stamped.start hre) (by simp [Pc.usesGatt])
  · next links since hpc =>
    obtain ⟨hlen, rfl⟩ := guarded_eq_some.mp ht
    have hstamp : s.Stamped links since := h.handshake (by rw [hpc]; rfl)
    exact h.shake rfl hstamp (fun _ => hlen)
  · next links since hpc =>
    obtain rfl := Option.some.inj ht
    have hstamp : s.Stamped links since := h.handshake (by rw [hpc]; rfl)
    have hlen : minVerifyOps ≤ links.length := h.minted (.inl hpc)
    exact h.shake rfl hstamp (fun _ => hlen)
  · next links since hpc =>
    obtain rfl := Option.some.inj ht
    have hstamp : s.Stamped links since := h.handshake (by rw [hpc]; rfl)
    have hlen : minVerifyOps ≤ links.length := h.minted (.inr hpc)
    rw [hpc] at hcond
    exact h.store hstamp hcond hlen rfl
  · split_ifs at ht
    · obtain rfl := Option.some.inj ht
      exact h.shake rfl (Stamped.start hre) (by simp [Pc.usesGatt])
    · obtain rfl := Option.some.inj ht
      exact h.goto rfl
  · next attempts links since hpc =>
    obtain ⟨hlen, rfl⟩ := guarded_eq_some.mp ht
    have hstamp : s.Stamped links since := h.handshake (by rw [hpc]; rfl)
    rw [hpc] at hcond
    exact h.store hstamp hcond hlen rfl
  · obtain rfl := Option.some.inj ht
    exact h.goto rfl
  · cases ht

theorem Inv.frame (h : s.Inv) (up : Bool) (attempts : Nat) :
    Inv { s with up := up, attempts := attempts } where
  stored hk := (h.stored hk).frame ..
  complete hk := h.complete hk
  handshake hp := (h.handshake hp).frame ..
  minted hp := h.minted hp

theorem Inv.relink (h : s.Inv) (hre : s.reconnecting = true) (link : Nat) (up : Bool)
    (attempts : Nat) :
    Inv { s with link := link, up := up, attempts := attempts, reconnecting := false } where
  stored hk := (h.stored hk).relink hre ..
  complete hk := h.complete hk
  handshake hp := (h.handshake hp).relink hre ..
  minted hp := h.minted hp

theorem Inv.reconnect (h : s.Inv) (hmax : s.generation.toNat + 1 < 2 ^ 64) (attempts : Nat) :
    Inv { s with
      attempts := attempts, generation := s.generation + 1, reconnecting := true
      up := false } where
  stored hk := (h.stored hk).reconnect hmax _
  complete hk := h.complete hk
  handshake hp := (h.handshake hp).reconnect hmax _
  minted hp := h.minted hp

theorem Inv.exchanged (h : s.Inv) (attempts : Nat) :
    Inv { s with attempts := attempts, pc := s.pc.exchanged s.link } := by
  have hframe := h.frame s.up attempts
  cases hpc : s.pc with
  | verifying links since =>
    have hstamp : Stamped { s with attempts := attempts } links since :=
      hframe.handshake (by rw [hpc]; rfl)
    exact hframe.shake rfl hstamp.snoc (by simp [Pc.exchanged, Pc.usesGatt])
  | reviving attempts' links since =>
    have hstamp : Stamped { s with attempts := attempts } links since :=
      hframe.handshake (by rw [hpc]; rfl)
    exact hframe.shake rfl hstamp.snoc (by simp [Pc.exchanged, Pc.usesGatt])
  | _ =>
    rw [hpc] at hframe
    exact hframe

theorem inv_step {a : LinkAction} (h : s.Inv)
    (hstep : restrict step Undisturbed s a = some t) : t.Inv := by
  obtain ⟨hcond, hstep⟩ := restrict_eq_some.mp hstep
  cases a with
  | linkDrops =>
    obtain rfl := Option.some.inj hstep
    exact h.frame false s.attempts
  | gattOk =>
    obtain ⟨-, rfl⟩ := guarded_eq_some.mp hstep
    exact h.exchanged 0
  | gattLost =>
    obtain ⟨-, hstep⟩ := Option.ite_none_right_eq_some.mp hstep
    split_ifs at hstep
    · exact (h.frame s.up 0).giveUp hstep
    · obtain rfl := Option.some.inj hstep
      exact h.reconnect hcond _
  | gattErr =>
    obtain ⟨-, hstep⟩ := Option.ite_none_right_eq_some.mp hstep
    exact (h.frame s.up 0).giveUp hstep
  | connected =>
    obtain ⟨hre, rfl⟩ := guarded_eq_some.mp hstep
    exact h.relink hre (s.link + 1) true s.attempts
  | connectFails linkUp =>
    obtain ⟨hre, hstep⟩ := Option.ite_none_right_eq_some.mp hstep
    exact (h.relink hre _ linkUp 0).giveUp hstep
  | stepOk =>
    obtain ⟨hre, hstep⟩ := Option.ite_none_right_eq_some.mp hstep
    exact h.done hre hcond hstep
  | stepErr =>
    obtain ⟨-, hstep⟩ := Option.ite_none_right_eq_some.mp hstep
    exact h.giveUp hstep
  | begin retries =>
    obtain ⟨-, rfl⟩ := guarded_eq_some.mp hstep
    exact h.goto rfl
  | drop linkUp =>
    rw [step] at hstep
    by_cases hre : s.reconnecting = true
    · rw [if_pos hre] at hstep
      obtain rfl := Option.some.inj hstep
      exact (h.relink hre _ linkUp 0).goto (Pc.handshake_dropped s.pc)
    · rw [if_neg hre] at hstep
      obtain rfl := Option.some.inj hstep
      exact (h.frame s.up 0).goto (Pc.handshake_dropped s.pc)

theorem Inv.keysCurrent (h : s.Inv) : s.KeysCurrent := by
  intro k hk hle
  have hstamp := h.stored hk
  have heq : k.generation = s.generation :=
    UInt64.toNat_inj.mp (Nat.le_antisymm hstamp.le (UInt64.le_iff_toNat_le.mp hle))
  exact ⟨h.complete hk, (hstamp.current heq).2⟩

/-- In every run in which no session is stored after a reconnect that began later
than its Pair Verify, a session that is not behind was exchanged on the current link. -/
theorem keysCurrent_of_undisturbed (actions : List LinkAction) {s : Connection}
    (h : steps (restrict step Undisturbed) new actions = some s) : s.KeysCurrent :=
  (steps_invariant inv_step actions inv_new h).keysCurrent

def buildAndVerify : List LinkAction := [.stepOk, .gattOk, .gattOk, .gattOk, .gattOk, .stepOk]

theorem keysCurrent_after_revival :
    ∃ s, steps (restrict step Undisturbed) new
        (buildAndVerify ++ ([.stepOk, .stepOk, .begin true, .stepOk, .linkDrops, .gattLost,
          .connected, .stepErr, .stepOk, .gattOk, .gattOk, .gattOk, .gattOk, .stepOk] :
          List LinkAction)) = some s ∧
      s.secure = some ⟨[1, 1, 1, 1], 1⟩ ∧ s.generation = 1 ∧ s.KeysCurrent := by
  refine exists_of_view (fun s => (s.secure, s.generation)) (some ⟨[1, 1, 1, 1], 1⟩, 1)
    (by decide +kernel) ?_
  intro s hs hstate
  obtain ⟨hsecure, hgen⟩ := Prod.mk.inj hstate
  exact ⟨hsecure, hgen, keysCurrent_of_undisturbed _ hs⟩

/-- The link drops after the Pair Verify: the request for a broadcast key brings
up the next one, and the old keys are stored as if they were of that one. -/
theorem keys_of_dropped_link_stored :
    ∃ s, steps step new
        (buildAndVerify ++ ([.linkDrops, .gattLost, .connected, .gattOk, .stepErr, .stepOk] :
          List LinkAction)) = some s ∧
      s.secure = some ⟨[0, 0, 0, 0], 1⟩ ∧ s.generation = 1 ∧ s.link = 1 ∧ ¬ s.KeysCurrent := by
  refine exists_of_view (fun s => (s.secure, s.generation, s.link)) (some ⟨[0, 0, 0, 0], 1⟩, 1, 1)
    (by decide +kernel) ?_
  intro s hs hstate
  simp only [Prod.mk.injEq] at hstate
  obtain ⟨hsecure, hgen, hlink⟩ := hstate
  refine ⟨hsecure, hgen, hlink, ?_⟩
  intro hcurrent
  have hle : s.generation ≤ 1 := by
    rw [hgen]
    decide
  have hzero := (hcurrent _ hsecure hle).2 0 (List.mem_cons_self ..)
  rw [hlink] at hzero
  cases hzero

end Connection
end HapRust.Ble
