import HapRust.Controller.Handle

/-! The cached attribute tree against the accessory's config number. The
supervisor compares the number a reconnect reports with the one reported by the
reconnect before; the number under which the tree was fetched is kept nowhere. -/

namespace HapRust.Controller
open Lib

namespace HandleState

/-- If a reconnect has reported another config number than the one under which
the cached tree was fetched, the next call of `accessories` fetches it again. -/
def Refetches (s : HandleState) : Prop :=
  ∀ t, s.cached = some t → t.outdated = true → s.needsRefresh = true

def notices (s : HandleState) (config : UInt32) (t : AccessoryTree) : Bool :=
  t.config == config || s.needsRefresh || s.lastCn.any (· != config)

/-- A reconnect reports the number under which the tree was fetched that is cached
or on its way, or one that differs from the last it reported, or a refresh is due. -/
def Noticed (s : HandleState) : HandleAction → Prop
  | .reconnected (some config) =>
    s.cached.all (s.notices config) = true ∧ s.call.tree.all (s.notices config) = true
  | _ => True

instance (s : HandleState) : (a : HandleAction) → Decidable (s.Noticed a)
  | .reconnected (some config) => inferInstanceAs (Decidable
      (s.cached.all (s.notices config) = true ∧ s.call.tree.all (s.notices config) = true))
  | .reconnected none | .begin _ | .handled _ | .succeeds | .fails | .dies | .elapsed | .wakes
  | .takeEvents | .sessionEnds | .snapshot | .resubscribed _ | .publish => isTrue trivial

structure RefreshInv (s : HandleState) : Prop where
  cached : s.Refetches
  coming : ∀ t, s.call.tree = some t → t.outdated = true → s.needsRefresh = true

variable {s t : HandleState}

theorem RefreshInv.same (h : s.RefreshInv) (hcached : t.cached = s.cached)
    (hrefresh : t.needsRefresh = s.needsRefresh)
    (hcoming : t.call.tree = none ∨ t.call.tree = s.call.tree) : t.RefreshInv := by
  refine ⟨?_, ?_⟩
  · intro tree htree hout
    rw [hcached] at htree
    rw [hrefresh]
    exact h.cached tree htree hout
  · intro tree htree hout
    rw [hrefresh]
    rcases hcoming with hnone | hsame
    · rw [hnone] at htree
      cases htree
    · rw [hsame] at htree
      exact h.coming tree htree hout

theorem needsRefresh_checkConfig {config : UInt32} {tree : AccessoryTree}
    (hold : tree.outdated = true → s.needsRefresh = true) (hnoticed : s.notices config tree = true)
    (hout : (tree.report config).outdated = true) : (s.checkConfig config).needsRefresh = true := by
  simp only [AccessoryTree.report, Bool.or_eq_true, bne_iff_ne] at hout
  simp only [notices, Bool.or_eq_true, beq_iff_eq] at hnoticed
  simp only [checkConfig, Bool.or_eq_true, Bool.and_eq_true, bne_iff_ne]
  rcases hout with hout | hne
  · exact .inl (hold hout)
  · rcases hnoticed with (heq | hrefresh) | hlast
    · exact absurd heq hne
    · exact .inl hrefresh
    · cases hlast' : s.lastCn with
      | none =>
        rw [hlast'] at hlast
        cases hlast
      | some k =>
        rw [hlast', Option.any_some, bne_iff_ne] at hlast
        refine .inr ⟨rfl, ?_⟩
        intro hsame
        exact hlast (Option.some.inj hsame)

theorem RefreshInv.checkConfig (h : s.RefreshInv) {config : UInt32}
    (hnoticed : s.Noticed (.reconnected (some config))) : (s.checkConfig config).RefreshInv := by
  obtain ⟨hcached, hcoming⟩ := hnoticed
  refine ⟨?_, ?_⟩
  · intro tree htree hout
    obtain ⟨old, hold, rfl⟩ := Option.map_eq_some_iff.mp htree
    rw [hold, Option.all_some] at hcached
    exact needsRefresh_checkConfig (h.cached old hold) hcached hout
  · intro tree htree hout
    have hmap : (s.checkConfig config).call.tree = s.call.tree.map (AccessoryTree.report config) := by
      cases hcall : s.call <;> simp [HandleState.checkConfig, hcall, Call.report, Call.tree]
    rw [hmap] at htree
    obtain ⟨old, hold, rfl⟩ := Option.map_eq_some_iff.mp htree
    rw [hold, Option.all_some] at hcoming
    exact needsRefresh_checkConfig (h.coming old hold) hcoming hout

theorem RefreshInv.succeed (h : s.RefreshInv) (hstep : s.succeed = some t) : t.RefreshInv := by
  unfold HandleState.succeed at hstep
  split at hstep
  · next tree hcall =>
    obtain rfl := Option.some.inj hstep
    refine ⟨?_, fun _ hnone => by cases hnone⟩
    intro stored hstored hout
    obtain rfl := Option.some.inj hstored
    exact h.coming tree (by rw [hcall]; rfl) hout
  · obtain rfl := Option.some.inj hstep
    exact h.same rfl rfl (.inl rfl)
  · obtain rfl := Option.some.inj hstep
    exact h.same rfl rfl (.inl rfl)
  · cases hstep

theorem RefreshInv.handle (h : s.RefreshInv) {config : UInt32}
    (hstep : s.handle config = some t) : t.RefreshInv := by
  unfold HandleState.handle at hstep
  split at hstep
  · obtain rfl := Option.some.inj hstep
    refine ⟨h.cached, ?_⟩
    intro tree htree hout
    obtain rfl := Option.some.inj htree
    cases hout
  · obtain rfl := Option.some.inj hstep
    exact h.same rfl rfl (.inr rfl)
  · obtain rfl := Option.some.inj hstep
    exact h.same rfl rfl (.inr rfl)
  · cases hstep

end HandleState
end HapRust.Controller
