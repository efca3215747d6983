import HapRust.Lib.Exchange
import HapRust.Transport.Session

/-! In a session on which no frame is sealed after a call was cut short, every
response goes to the call whose request it answers. The invariant relates the
state to one exchange at a time: the requests the accessory has received, its
answers, and the answers still on their way. -/

namespace HapRust.Transport
open Lib Crypto

theorem encodeRequest_ne_nil (q : Request) : encodeRequest q ≠ [] := by
  have hspace : asBytes " " ≠ [] := by decide +kernel
  simp [encodeRequest, hspace]

theorem encryptFrame_ne_nil {P : Primitives} {key : Arr 32} {counter counter' : UInt64}
    {block frame : Bytes} (h : encryptFrame P key counter block = (.ok frame, counter')) :
    frame ≠ [] := by
  unfold encryptFrame at h
  dsimp only at h
  split_ifs at h
  · cases h
  · split at h
    · cases h
    · obtain rfl := Except.ok.inj (Prod.mk.inj h).1
      simp [leBytes]

theorem Phase.begun_of_sent {p : Phase} (h : p.sent = true) : p.begun = true := by
  cases p <;> simp_all [Phase.sent, Phase.begun]

theorem Phase.holds_of_begun {p : Phase} (h : p.begun = true) : p.holdsResponses = true := by
  cases p <;> simp_all [Phase.holdsResponses, Phase.begun]

theorem Phase.not_begun_of_not_holds {p : Phase} (hp : p.holdsResponses = false) :
    p.begun = false := by
  rw [← Bool.not_eq_true]
  intro hb
  rw [Phase.holds_of_begun hb] at hp
  cases hp

namespace SessionState

def Silent (s : SessionState) : Prop :=
  s.readerDone = true ∧ ∀ result ∈ s.channel, ∃ e, result = .error e

structure Serves (s : SessionState) (e : Exchange Nat HapResponse) : Prop where
  received : s.received = e.received
  answers : s.answers = e.answers
  queue : ∃ oks errs, s.channel = oks.map .ok ++ errs ∧
    (errs = [] ∨ s.readerDone = true ∧ ∃ err, errs = [.error err]) ∧ e.unread = oks ++ s.transit
  opened : ∀ c, e.opened.map Prod.fst = some c ↔ (s.phase c).sent = true

structure Inv (s : SessionState) : Prop where
  lock : ∀ c, (s.phase c).holdsResponses = true → s.responses = some c
  frames : ∀ {c done pending blocks}, s.phase c = .writing done pending blocks →
    done = [] → pending = [] ∧ blocks ≠ []
  cut : s.cutShort = true → ∀ c, (s.phase c).begun = false
  served : s.cutShort = true ∨ s.Silent ∨ ∃ e, s.Serves e
  paired : s.Paired

theorem inv_new : Inv new where
  lock _ h := by cases h
  frames h := by cases h
  cut h := by cases h
  served := .inr (.inr ⟨⟨[], none⟩, rfl, rfl, ⟨[], [], rfl, .inl rfl, rfl⟩, fun c => by
    simp [new, Phase.sent]⟩)
  paired _ _ h := by cases h

variable {s : SessionState} {c : Nat} {p : Phase}

theorem finish_self : (s.finish c p).phase c = p := Function.update_self ..

theorem finish_of_ne {d : Nat} (h : d ≠ c) : (s.finish c p).phase d = s.phase d :=
  Function.update_of_ne h ..

theorem forall_goto (Q : Nat → Phase → Prop) :
    (∀ d, Q d ((s.goto c p).phase d)) ↔ Q c p ∧ ∀ d, d ≠ c → Q d (s.phase d) :=
  Function.forall_update_iff s.phase Q

theorem forall_finish (Q : Nat → Phase → Prop) :
    (∀ d, Q d ((s.finish c p).phase d)) ↔ Q c p ∧ ∀ d, d ≠ c → Q d (s.phase d) :=
  Function.forall_update_iff s.phase Q

theorem of_writing {Q : Nat → List Bytes → Bytes → List Bytes → Prop}
    (hc : ∀ {done pending blocks}, p = .writing done pending blocks → Q c done pending blocks)
    (hs : ∀ {d done pending blocks}, s.phase d = .writing done pending blocks →
      Q d done pending blocks) {d : Nat} {done : List Bytes} {pending : Bytes}
    {blocks : List Bytes} (hd : (s.goto c p).phase d = .writing done pending blocks) :
    Q d done pending blocks := by
  revert done pending blocks
  refine (forall_goto fun d q => ∀ {done pending blocks}, q = .writing done pending blocks →
    Q d done pending blocks).mpr ⟨hc, fun d _ => hs⟩ d

theorem Inv.holder_unique (h : s.Inv) {c d : Nat} (hc : (s.phase c).holdsResponses = true)
    (hd : (s.phase d).holdsResponses = true) : c = d :=
  Option.some.inj ((h.lock c hc).symm.trans (h.lock d hd))

theorem Inv.begun_false (h : s.Inv) (hc : (s.phase c).begun = true) {d : Nat} (hdc : d ≠ c) :
    (s.phase d).begun = false := by
  rw [← Bool.not_eq_true]
  intro hd
  exact hdc (h.holder_unique (Phase.holds_of_begun hd) (Phase.holds_of_begun hc))

theorem Inv.not_cut (h : s.Inv) (hc : (s.phase c).begun = true) : ¬ s.cutShort = true := by
  intro hs
  have hfalse := h.cut hs c
  rw [hc] at hfalse
  cases hfalse

theorem Inv.served_of {t : SessionState} (h : s.Inv) (hcut : s.cutShort = true → t.cutShort = true)
    (hsilent : s.Silent → t.Silent) (hserves : ∀ e, s.Serves e → ∃ e', t.Serves e') :
    t.cutShort = true ∨ t.Silent ∨ ∃ e, t.Serves e := by
  rcases h.served with hs | hs | ⟨e, he⟩
  · exact .inl (hcut hs)
  · exact .inr (.inl (hsilent hs))
  · exact .inr (.inr (hserves e he))

theorem Paired.mono {t : SessionState} (h : s.Paired)
    (hphase : ∀ c r, t.phase c = .returned (.ok r) → s.phase c = .returned (.ok r))
    (hreceived : s.received <+: t.received) (hanswers : s.answers <+: t.answers) : t.Paired := by
  intro c r hr
  obtain ⟨i, hi, hi'⟩ := h c r (hphase c r hr)
  obtain ⟨xs, hxs⟩ := hreceived
  obtain ⟨ys, hys⟩ := hanswers
  refine ⟨i, ?_, ?_⟩
  · rw [← hxs, List.getElem?_append_left (List.getElem?_eq_some_iff.mp hi).1]
    exact hi
  · rw [← hys, List.getElem?_append_left (List.getElem?_eq_some_iff.mp hi').1]
    exact hi'

theorem Paired.goto (h : s.Paired) (hresult : ∀ r, p ≠ .returned (.ok r)) :
    (s.goto c p).Paired := by
  refine h.mono ?_ (List.prefix_refl _) (List.prefix_refl _)
  refine (forall_goto fun d q => ∀ r, q = .returned (.ok r) → s.phase d = .returned (.ok r)).mpr ?_
  exact ⟨fun r hr => absurd hr (hresult r), fun d _ r hr => hr⟩

theorem Inv.wire (h : s.Inv) (writer : Option Nat) (counter : UInt64) (wire : Bytes) :
    Inv { s with writer := writer, counter := counter, wire := wire } where
  lock := h.lock
  frames := h.frames
  cut := h.cut
  served := h.served_of id id fun e he => ⟨e, he.received, he.answers, he.queue, he.opened⟩
  paired := h.paired

theorem Inv.goto (h : s.Inv) (hholds : p.holdsResponses = true → s.responses = some c)
    (hframes : ∀ {done pending blocks}, p = .writing done pending blocks →
      done = [] → pending = [] ∧ blocks ≠ [])
    (hcut : s.cutShort = true → p.begun = false) (hsent : p.sent = (s.phase c).sent)
    (hresult : ∀ r, p ≠ .returned (.ok r)) : Inv (s.goto c p) where
  lock := by
    refine (forall_goto fun d q => q.holdsResponses = true → s.responses = some d).mpr ?_
    exact ⟨hholds, fun d _ => h.lock d⟩
  frames := of_writing hframes h.frames
  cut hs := by
    refine (forall_goto fun d q => q.begun = false).mpr ?_
    exact ⟨hcut hs, fun d _ => h.cut hs d⟩
  served := by
    refine h.served_of id id fun e he => ⟨e, he.received, he.answers, he.queue, ?_⟩
    refine (forall_goto fun d q => e.opened.map Prod.fst = some d ↔ q.sent = true).mpr ?_
    refine ⟨?_, fun d _ => he.opened d⟩
    rw [hsent]
    exact he.opened c
  paired := h.paired.goto hresult

theorem Inv.finish_lock (h : s.Inv) (hp : p.holdsResponses = false) (d : Nat)
    (hd : ((s.finish c p).phase d).holdsResponses = true) :
    (s.finish c p).responses = some d := by
  by_cases hdc : d = c
  · subst hdc
    rw [finish_self, hp] at hd
    cases hd
  · rw [finish_of_ne hdc] at hd
    have hlock := h.lock d hd
    have hne : ¬ s.responses = some c := by
      rw [hlock]
      exact fun hsome => hdc (Option.some.inj hsome)
    rw [SessionState.finish, if_neg hne, hlock]

theorem Inv.finish_frames (h : s.Inv) (hp : p.holdsResponses = false) {d : Nat} :
    ∀ {done pending blocks}, (s.finish c p).phase d = .writing done pending blocks →
      done = [] → pending = [] ∧ blocks ≠ [] := by
  refine of_writing ?_ h.frames
  rintro done pending blocks rfl
  cases hp

theorem Inv.cut_finish (h : s.Inv) (hp : p.holdsResponses = false)
    (hresult : ∀ r, p ≠ .returned (.ok r)) : Inv ((s.cut c).finish c p) where
  lock := h.finish_lock hp
  frames := h.finish_frames hp
  cut hs := by
    refine (forall_finish fun d q => q.begun = false).mpr ?_
    refine ⟨Phase.not_begun_of_not_holds hp, ?_⟩
    intro d hdc
    rcases Bool.or_eq_true_iff.mp hs with hs | hb
    · exact h.cut hs d
    · exact h.begun_false hb hdc
  served := by
    by_cases hb : (s.phase c).begun = true
    · exact .inl (Bool.or_eq_true_iff.mpr (.inr hb))
    · refine h.served_of (fun hs => Bool.or_eq_true_iff.mpr (.inl hs)) id ?_
      intro e he
      refine ⟨e, he.received, he.answers, he.queue, ?_⟩
      refine (forall_finish fun d q => e.opened.map Prod.fst = some d ↔ q.sent = true).mpr ?_
      refine ⟨?_, fun d _ => he.opened d⟩
      rw [he.opened c]
      refine iff_of_false (fun hsent => hb (Phase.begun_of_sent hsent)) ?_
      intro hsent
      have hnot := Phase.not_begun_of_not_holds hp
      rw [Phase.begun_of_sent hsent] at hnot
      cases hnot
  paired := h.paired.goto hresult

theorem Inv.arrive (h : s.Inv) {done : List Bytes} {pending : Bytes} (hne : pending ≠ [])
    (hphase : s.phase c = .writing done pending []) :
    Inv ({ s with received := s.received ++ [c] }.goto c (.writing done [] [])) := by
  have hdone : done ≠ [] := fun hnil => hne (h.frames hphase hnil).1
  have hbegun : (s.phase c).begun = true := by simp [hphase, Phase.begun, hdone]
  have hunsent : ∀ d, ¬ (s.phase d).sent = true := by
    intro d hsent
    have hdc : d = c := h.holder_unique (Phase.holds_of_begun (Phase.begun_of_sent hsent))
      (Phase.holds_of_begun hbegun)
    rw [hdc, hphase] at hsent
    simp [Phase.sent, hne] at hsent
  have hfree : ∀ e, s.Serves e → e.opened = none := by
    intro e he
    rw [← Option.map_eq_none_iff (f := Prod.fst), Option.eq_none_iff_forall_ne_some]
    intro d hd
    exact hunsent d ((he.opened d).mp hd)
  constructor
  · refine (forall_goto fun d q => q.holdsResponses = true → s.responses = some d).mpr ?_
    exact ⟨fun _ => h.lock c (Phase.holds_of_begun hbegun), fun d _ => h.lock d⟩
  · refine of_writing ?_ h.frames
    intro done' pending' blocks' hd hnil
    cases hd
    exact absurd hnil hdone
  · intro hs
    exact absurd hs (h.not_cut hbegun)
  · refine h.served_of id id ?_
    intro e he
    have hopen := hfree e he
    refine ⟨e.arrive c, ?_, ?_, ?_, ?_⟩
    · rw [Exchange.received_arrive hopen, ← he.received]
      rfl
    · rw [Exchange.answers_arrive hopen]
      exact he.answers
    · obtain ⟨oks, errs, hchannel, herrs, hunread⟩ := he.queue
      refine ⟨oks, errs, hchannel, herrs, ?_⟩
      have hnil : e.unread = [] := by simp [Exchange.unread, hopen]
      rw [hnil] at hunread
      exact hunread
    · refine (forall_goto fun d q =>
        (e.arrive c).opened.map Prod.fst = some d ↔ q.sent = true).mpr ?_
      refine ⟨?_, ?_⟩
      · simp [Exchange.arrive, Phase.sent, hdone]
      · intro d hdc
        refine iff_of_false ?_ (hunsent d)
        intro hsome
        exact hdc (Option.some.inj hsome).symm
  · refine h.paired.mono ?_ (List.prefix_append _ _) (List.prefix_refl _)
    refine (forall_goto fun d q =>
      ∀ r, q = .returned (.ok r) → s.phase d = .returned (.ok r)).mpr ?_
    refine ⟨?_, fun d _ r hr => hr⟩
    intro r hr
    cases hr

theorem Inv.own_response (h : s.Inv) (hphase : s.phase c = .awaiting) {r : HapResponse}
    {rest : List (Except TransportError HapResponse)} (hchannel : s.channel = .ok r :: rest) :
    ∃ e, s.Serves e ∧ e.opened = some (c, some r) := by
  have hbegun : (s.phase c).begun = true := by rw [hphase]; rfl
  rcases h.served with hs | ⟨-, herrs⟩ | ⟨e, he⟩
  · exact absurd hs (h.not_cut hbegun)
  · obtain ⟨err, herr⟩ := herrs (.ok r) (by rw [hchannel]; exact List.mem_cons_self ..)
    cases herr
  · refine ⟨e, he, ?_⟩
    obtain ⟨oks, errs, hoks, herrs, hunread⟩ := he.queue
    rw [hchannel] at hoks
    cases oks with
    | nil =>
      rcases herrs with rfl | ⟨-, err, rfl⟩ <;> simp at hoks
    | cons r' oks =>
      simp only [List.map_cons, List.cons_append, List.cons.injEq, Except.ok.injEq] at hoks
      obtain ⟨rfl, -⟩ := hoks
      obtain ⟨-, d, hd⟩ := Exchange.opened_of_unread hunread
      have hsent : (s.phase c).sent = true := by rw [hphase]; rfl
      have hc := (he.opened c).mpr hsent
      rw [hd] at hc ⊢
      obtain rfl : d = c := Option.some.inj hc
      rfl

theorem Inv.begun_finish (h : s.Inv) (hbegun : (s.phase c).begun = true)
    (hp : p.holdsResponses = false) : ∀ d, ((s.finish c p).phase d).begun = false := by
  refine (forall_finish fun d q => q.begun = false).mpr ?_
  exact ⟨Phase.not_begun_of_not_holds hp, fun d hdc => h.begun_false hbegun hdc⟩

theorem Serves.close {e : Exchange Nat HapResponse} {r : HapResponse} (he : s.Serves e)
    (hopen : e.opened = some (c, some r))
    {rest : List (Except TransportError HapResponse)} (hchannel : s.channel = .ok r :: rest)
    (hover : ∀ d, ((s.finish c p).phase d).begun = false) :
    Serves ({ s with channel := rest }.finish c p) (e.close c r) := by
  obtain ⟨hreceived, hanswers, -, -⟩ := Exchange.close_of_opened hopen
  refine ⟨he.received.trans hreceived.symm, he.answers.trans hanswers.symm, ?_, ?_⟩
  · obtain ⟨oks, errs, hoks, herrs, hunread⟩ := he.queue
    have hone : [r] = oks ++ s.transit := by
      rw [← hunread, Exchange.unread, hopen]
      rfl
    rw [hchannel] at hoks
    cases oks with
    | nil => rcases herrs with rfl | ⟨-, err, rfl⟩ <;> simp at hoks
    | cons r' oks =>
      simp only [List.cons_append, List.cons.injEq, List.nil_eq, List.append_eq_nil_iff] at hone
      obtain ⟨rfl, rfl, htransit⟩ := hone
      refine ⟨[], errs, (List.cons.inj hoks).2, herrs, ?_⟩
      exact htransit.symm
  · intro d
    refine iff_of_false (by simp [Exchange.close]) ?_
    intro hsent
    have hbegun : ((s.finish c p).phase d).begun = true := Phase.begun_of_sent hsent
    rw [hover d] at hbegun
    cases hbegun

theorem Inv.silent_of_error (h : s.Inv) (hphase : s.phase c = .awaiting) {err : TransportError}
    {rest : List (Except TransportError HapResponse)} (hchannel : s.channel = .error err :: rest) :
    s.readerDone = true ∧ ∀ result ∈ rest, ∃ e, result = .error e := by
  have hbegun : (s.phase c).begun = true := by rw [hphase]; rfl
  rcases h.served with hs | ⟨hdone, herrs⟩ | ⟨e, he⟩
  · exact absurd hs (h.not_cut hbegun)
  · refine ⟨hdone, ?_⟩
    intro result hresult
    exact herrs result (by rw [hchannel]; exact List.mem_cons_of_mem _ hresult)
  · obtain ⟨oks, errs, hoks, herrs, -⟩ := he.queue
    rw [hchannel] at hoks
    cases oks with
    | nil =>
      rcases herrs with rfl | ⟨hdone, err', rfl⟩
      · simp at hoks
      · obtain rfl : rest = [] := (List.cons.inj hoks).2
        exact ⟨hdone, by simp⟩
    | cons r oks => simp at hoks

theorem Inv.take (h : s.Inv) (hphase : s.phase c = .awaiting)
    {result : Except TransportError HapResponse}
    {rest : List (Except TransportError HapResponse)} (hchannel : s.channel = result :: rest) :
    Inv ({ s with channel := rest }.finish c (.returned result)) := by
  have hbegun : (s.phase c).begun = true := by rw [hphase]; rfl
  have hover := h.begun_finish (c := c) (p := .returned result) hbegun rfl
  refine ⟨h.finish_lock rfl, h.finish_frames rfl, fun _ => hover, ?_, ?_⟩
  · cases result with
    | ok r =>
      obtain ⟨e, he, hopen⟩ := h.own_response hphase hchannel
      exact .inr (.inr ⟨e.close c r, he.close hopen hchannel hover⟩)
    | error err => exact .inr (.inl (h.silent_of_error hphase hchannel))
  · intro d r hd
    by_cases hdc : d = c
    · subst hdc
      rw [finish_self] at hd
      obtain rfl := Phase.returned.inj hd
      obtain ⟨e, he, hopen⟩ := h.own_response hphase hchannel
      obtain ⟨-, -, hi, hi'⟩ := Exchange.close_of_opened hopen
      rw [← he.received] at hi
      rw [← he.answers] at hi'
      exact ⟨e.finished.length, hi, hi'⟩
    · rw [finish_of_ne hdc] at hd
      exact h.paired d r hd

theorem Inv.noResponse (h : s.Inv) (hphase : s.phase c = .awaiting) (hchannel : s.channel = [])
    (hdone : s.readerDone = true) : Inv (s.finish c (.returned (.error .noResponse))) := by
  have hbegun : (s.phase c).begun = true := by rw [hphase]; rfl
  refine ⟨h.finish_lock rfl, h.finish_frames rfl, fun _ => h.begun_finish hbegun rfl, ?_,
    h.paired.goto (by simp)⟩
  refine .inr (.inl ⟨hdone, ?_⟩)
  intro result hresult
  change result ∈ s.channel at hresult
  rw [hchannel] at hresult
  cases hresult

theorem Inv.answer (h : s.Inv) (hlt : s.answers.length < s.received.length) (r : HapResponse) :
    Inv { s with answers := s.answers ++ [r], transit := s.transit ++ [r] } := by
  refine ⟨h.lock, h.frames, h.cut, ?_, ?_⟩
  · refine h.served_of id id ?_
    intro e he
    rw [he.answers, he.received] at hlt
    obtain ⟨d, hd⟩ := Exchange.opened_of_length_lt hlt
    obtain ⟨hanswers, hunread'⟩ := Exchange.answers_answer hd r
    obtain ⟨oks, errs, hoks, herrs, hunread⟩ := he.queue
    refine ⟨e.answer d r, ?_, ?_, ⟨oks, errs, hoks, herrs, ?_⟩, ?_⟩
    · rw [Exchange.received_answer hd]
      exact he.received
    · rw [hanswers, ← he.answers]
    · rw [hunread', hunread, List.append_assoc]
    · intro d'
      rw [← he.opened d', hd]
      rfl
  · exact h.paired.mono (fun _ _ hd => hd) (List.prefix_refl _) (List.prefix_append _ _)

theorem Serves.queue_running {e : Exchange Nat HapResponse} (he : s.Serves e)
    (hrun : s.readerDone = false) :
    ∃ oks, s.channel = oks.map .ok ∧ e.unread = oks ++ s.transit := by
  obtain ⟨oks, errs, hoks, herrs, hunread⟩ := he.queue
  rcases herrs with rfl | ⟨hdone, -⟩
  · exact ⟨oks, by rw [hoks, List.append_nil], hunread⟩
  · rw [hrun] at hdone
    cases hdone

theorem not_silent (hrun : s.readerDone = false) : ¬ s.Silent := by
  rintro ⟨hdone, -⟩
  rw [hrun] at hdone
  cases hdone

theorem Inv.reader (h : s.Inv) (hrun : s.readerDone = false) (read : List HapResponse)
    (errs : List (Except TransportError HapResponse)) {transit : List HapResponse}
    {channel : List (Except TransportError HapResponse)} {readerDone : Bool}
    (htransit : s.transit = read ++ transit)
    (hchannel : channel = s.channel ++ (read.map .ok ++ errs))
    (herrs : errs = [] ∨ readerDone = true ∧ ∃ err, errs = [.error err]) :
    Inv { s with transit := transit, channel := channel, readerDone := readerDone } := by
  refine ⟨h.lock, h.frames, h.cut, ?_, h.paired⟩
  refine h.served_of id (fun hs => absurd hs (not_silent hrun)) ?_
  intro e he
  obtain ⟨oks, hoks, hunread⟩ := he.queue_running hrun
  refine ⟨e, he.received, he.answers, ⟨oks ++ read, errs, ?_, herrs, ?_⟩, he.opened⟩
  · rw [hchannel, hoks, List.map_append, List.append_assoc]
  · rw [hunread, htransit, List.append_assoc]

section
variable {P : Primitives} {key : Arr 32} {request : Nat → Request} {t : SessionState}

theorem Inv.lockResponses (h : s.Inv) (hphase : s.phase c = .waiting) (hfree : s.responses = none) :
    Inv ({ s with responses := some c }.goto c .locked) := by
  have hlocked : Inv { s with responses := some c } := by
    refine ⟨?_, h.frames, h.cut, ?_, h.paired⟩
    · intro d hd
      rw [h.lock d hd] at hfree
      cases hfree
    · exact h.served_of id id fun e he => ⟨e, he.received, he.answers, he.queue, he.opened⟩
  refine hlocked.goto (fun _ => rfl) ?_ (fun _ => rfl) ?_ ?_
  · intro done pending blocks hp
    cases hp
  · simp [hphase, Phase.sent]
  · intro r hr
    cases hr

theorem Inv.lockWriter (h : s.Inv) (hphase : s.phase c = .locked) (q : Request) :
    Inv ({ s with writer := some c }.goto c
      (.writing [] [] (chunks maxBlock (encodeRequest q)))) := by
  refine (h.wire (some c) s.counter s.wire).goto ?_ ?_ (fun _ => rfl) ?_ ?_
  · intro _
    exact h.lock c (by rw [hphase]; rfl)
  · intro done pending blocks hp _
    cases hp
    refine ⟨rfl, ?_⟩
    rw [chunks_of_ne_nil (by decide) (encodeRequest_ne_nil q)]
    exact List.cons_ne_nil _ _
  · simp [hphase, Phase.sent]
  · intro r hr
    cases hr

theorem Inv.sealBlock (h : s.Inv) (hclean : s.cutShort = false) {done : List Bytes}
    {block frame : Bytes} {blocks : List Bytes} {counter : UInt64} (hframe : frame ≠ [])
    (hphase : s.phase c = .writing done [] (block :: blocks)) :
    Inv ({ s with counter := counter }.goto c (.writing (done ++ [block]) frame blocks)) := by
  refine (h.wire s.writer counter s.wire).goto ?_ ?_ ?_ ?_ ?_
  · intro _
    exact h.lock c (by rw [hphase]; rfl)
  · intro done' pending' blocks' hp hnil
    cases hp
    exact absurd hnil (by simp)
  · intro hs
    rw [show s.cutShort = true from hs] at hclean
    cases hclean
  · simp [hphase, Phase.sent, hframe]
  · intro r hr
    cases hr

theorem Inv.accept (h : s.Inv) {done : List Bytes} {pending : Bytes} {blocks : List Bytes} {n : Nat}
    (hpos : 0 < n) (hn : n ≤ pending.length) (hphase : s.phase c = .writing done pending blocks) :
    Inv ({ s with
      wire := s.wire ++ pending.take n
      received := if pending.drop n = [] ∧ blocks = [] then s.received ++ [c]
        else s.received }.goto c (.writing done (pending.drop n) blocks)) := by
  have hne : pending ≠ [] := List.ne_nil_of_length_pos (by omega)
  have hdone : done ≠ [] := fun hnil => hne (h.frames hphase hnil).1
  by_cases hlast : pending.drop n = [] ∧ blocks = []
  · obtain ⟨hdrop, rfl⟩ := hlast
    rw [hdrop, if_pos ⟨rfl, rfl⟩]
    exact (h.wire s.writer s.counter (s.wire ++ pending.take n)).arrive hne hphase
  · rw [if_neg hlast]
    refine (h.wire s.writer s.counter (s.wire ++ pending.take n)).goto ?_ ?_ ?_ ?_ ?_
    · intro _
      exact h.lock c (by rw [hphase]; rfl)
    · intro done' pending' blocks' hp hnil
      cases hp
      exact absurd hnil hdone
    · intro hs
      have hfalse := h.cut hs c
      rwa [hphase] at hfalse
    · have hlast' : pending.drop n = [] → blocks ≠ [] := fun hd hb => hlast ⟨hd, hb⟩
      simp only [hphase, Phase.sent]
      cases hd : pending.drop n <;> cases hb : blocks <;> simp_all
    · intro r hr
      cases hr

theorem Inv.flush (h : s.Inv) {done : List Bytes} (hphase : s.phase c = .writing done [] []) :
    Inv ({ s with writer := none }.goto c .awaiting) := by
  have hdone : done ≠ [] := fun hnil => (h.frames hphase hnil).2 rfl
  refine (h.wire none s.counter s.wire).goto ?_ ?_ ?_ ?_ ?_
  · intro _
    exact h.lock c (by rw [hphase]; rfl)
  · intro done' pending' blocks' hp
    cases hp
  · intro hs
    have hfalse := h.cut hs c
    simp [hphase, Phase.begun, hdone] at hfalse
  · simp [hphase, Phase.sent, hdone]
  · intro r hr
    cases hr

theorem inv_step {a : SessionAction} (h : s.Inv)
    (hstep : restrict (step P key request) Unspoiled s a = some t) : t.Inv := by
  obtain ⟨hclean, hstep⟩ := restrict_eq_some.mp hstep
  cases moves_of_step hstep with
  | call hphase =>
    refine h.goto (fun hp => ?_) (fun hp => ?_) (fun _ => rfl) ?_ (fun r hp => ?_)
    · cases hp
    · cases hp
    · rw [hphase]
      rfl
    · cases hp
  | lockResponses hphase hfree => exact h.lockResponses hphase hfree
  | @lockWriter c hphase hfree => exact h.lockWriter hphase (request c)
  | sealBlock hphase hframe => exact h.sealBlock hclean (encryptFrame_ne_nil hframe) hphase
  | @sealFails c done blocks block e counter hphase hframe =>
    have hcut := h.cut_finish (c := c) (p := .returned (.error e)) rfl (by simp)
    exact hcut.wire _ counter _
  | accept hphase hpos hn => exact h.accept hpos hn hphase
  | writeFails c => exact h.cut_finish rfl (by simp)
  | flush hphase => exact h.flush hphase
  | answer r hlt => exact h.answer hlt r
  | deliver htransit hrun => exact h.reader hrun [_] [] htransit rfl (.inl rfl)
  | readerFails e hrun => exact h.reader hrun [] [.error e] rfl rfl (.inr ⟨rfl, e, rfl⟩)
  | readerPanics hrun => exact h.reader hrun [] [] rfl (List.append_nil _).symm (.inl rfl)
  | take hphase hchannel => exact h.take hphase hchannel
  | noResponse hphase hchannel hdone => exact h.noResponse hphase hchannel hdone
  | drop c => exact h.cut_finish rfl (by simp)

/-- In every run in which no frame is sealed after a call was cut short, every
call that returned a response returned the answer to its own request. -/
theorem paired_of_unspoiled (P : Primitives) (key : Arr 32) (request : Nat → Request)
    (actions : List SessionAction) {s : SessionState}
    (h : steps (restrict (step P key request) Unspoiled) new actions = some s) : s.Paired :=
  (steps_invariant inv_step actions inv_new h).paired

end

def sampleRequest (c : Nat) : Request := ⟨"GET", if c = 1 then "/a" else "/b", "", []⟩

def sampleSend (c : Nat) : List SessionAction :=
  [.call c, .lockResponses c, .lockWriter c, .sealBlock c, .accept c 102, .flush c]

def sampleAnswer (status : UInt16) : HapResponse := ⟨status, "", []⟩

theorem paired_of_unspoiled_two_calls :
    ∃ s, steps (restrict (step plainPrimitives (constArr 32 0) sampleRequest) Unspoiled) new
        (sampleSend 1 ++ ([.call 3, .answer (sampleAnswer 200), .deliver, .take 1, .drop 3] :
          List SessionAction) ++ sampleSend 2 ++ ([.answer (sampleAnswer 204), .deliver, .take 2] :
          List SessionAction)) = some s ∧
      s.phase 2 = .returned (.ok (sampleAnswer 204)) ∧ s.Paired := by
  refine exists_of_view (·.phase 2) (.returned (.ok (sampleAnswer 204))) (by decide +kernel) ?_
  intro s hs hphase
  exact ⟨hphase, paired_of_unspoiled _ _ _ _ hs⟩

/-- A call is dropped while it awaits its response; the next one is given that response. -/
theorem stale_response_taken :
    ∃ s, steps (step plainPrimitives (constArr 32 0) sampleRequest) new
        (sampleSend 1 ++ ([.drop 1, .answer (sampleAnswer 200), .deliver] :
          List SessionAction) ++ sampleSend 2 ++ ([.take 2] : List SessionAction)) = some s ∧
      s.phase 2 = .returned (.ok (sampleAnswer 200)) ∧ s.received = [1, 2] ∧
      s.answers = [sampleAnswer 200] ∧ ¬ s.Paired := by
  refine exists_of_view (fun s => (s.phase 2, s.received, s.answers))
    (.returned (.ok (sampleAnswer 200)), [1, 2], [sampleAnswer 200]) (by decide +kernel) ?_
  intro s hs hstate
  simp only [Prod.mk.injEq] at hstate
  obtain ⟨hphase, hreceived, hanswers⟩ := hstate
  refine ⟨hphase, hreceived, hanswers, ?_⟩
  intro hpaired
  obtain ⟨i, hi, hi'⟩ := hpaired 2 _ hphase
  rw [hreceived] at hi
  rw [hanswers] at hi'
  obtain ⟨hlt, -⟩ := List.getElem?_eq_some_iff.mp hi'
  obtain rfl : i = 0 := by simpa using hlt
  simp at hi

end SessionState
end HapRust.Transport
