import HapRust.Transport.SessionErrors
import HapRust.Transport.SessionPairing

/-! Foreground requests over sessions that are replaced. A request runs on the current session; if
that turns out to be dead, it waits for a new one and is tried once more on that. What the second
try returns is passed on as it is. -/

namespace HapRust.Controller
open Lib Crypto Transport

inductive ForegroundError where
  | transport (e : TransportError)
  | connectionLost
  deriving DecidableEq

def isSessionDead : ForegroundError → Bool
  | .transport .connectionClosed | .transport .sessionClosed | .transport .noResponse
  | .transport .io => true
  | _ => false

inductive Foreground where
  | first (session : Nat)
  | waiting (dead : Nat)
  | retrying (session : Nat)
  | returned (result : Except ForegroundError HapResponse)
  | dropped
  deriving DecidableEq

structure ReconnectingSession where
  sessions : List SessionState
  requests : List Foreground

inductive ReconnectAction where
  | session (k : Nat) (action : SessionAction)
  | publish
  | request
  | settle (r : Nat)
  | timeout (r : Nat)
  | retry (r : Nat)
  | giveUp (r : Nat)
  | drop (r : Nat)

def internal : SessionAction → Bool
  | .call _ | .drop _ => false
  | _ => true

namespace ReconnectingSession
variable (P : Primitives) (key : Nat → Arr 32) (content : Nat → Request)

def new : ReconnectingSession := ⟨[.new], []⟩

def current (s : ReconnectingSession) : Nat := s.sessions.length - 1

def goto (s : ReconnectingSession) (r : Nat) (p : Foreground) : ReconnectingSession :=
  { s with requests := s.requests.set r p }

def onSession (s : ReconnectingSession) (k : Nat) (a : SessionAction) :
    Option ReconnectingSession := do
  let sess ← s.sessions[k]?
  let sess ← sess.step P (key k) content a
  return { s with sessions := s.sessions.set k sess }

def result (s : ReconnectingSession) (k r : Nat) : Option (Except TransportError HapResponse) := do
  let sess ← s.sessions[k]?
  match sess.phase r with
  | .returned x => some x
  | _ => none

def tryAgain (s : ReconnectingSession) (r : Nat) : Option ReconnectingSession := do
  let t ← s.onSession P key content s.current (.call r)
  return t.goto r (.retrying s.current)

def afterFirst (k : Nat) : Except TransportError HapResponse → Foreground
  | .ok resp => .returned (.ok resp)
  | .error e =>
    if isSessionDead (.transport e) then .waiting k else .returned (.error (.transport e))

def step (s : ReconnectingSession) : ReconnectAction → Option ReconnectingSession
  | .session k a => if internal a then s.onSession P key content k a else none
  | .publish => some { s with sessions := s.sessions ++ [.new] }
  | .request => do
    let t ← s.onSession P key content s.current (.call s.requests.length)
    return { t with requests := t.requests ++ [.first s.current] }
  | .settle r =>
    match s.requests[r]? with
    | some (.first k) => (s.result k r).map fun x => s.goto r (afterFirst k x)
    | some (.retrying k) => (s.result k r).map fun x => s.goto r (.returned (mapErr .transport x))
    | _ => none
  | .timeout r =>
    match s.requests[r]? with
    | some (.first k) => do
      let t ← s.onSession P key content k (.drop r)
      if t.current = k then return t.goto r (.returned (.error .connectionLost))
      else t.tryAgain P key content r
    | _ => none
  | .retry r =>
    match s.requests[r]? with
    | some (.waiting dead) => if s.current ≠ dead then s.tryAgain P key content r else none
    | _ => none
  | .giveUp r =>
    match s.requests[r]? with
    | some (.waiting _) => some (s.goto r (.returned (.error .connectionLost)))
    | _ => none
  | .drop r =>
    match s.requests[r]? with
    | some (.first k) | some (.retrying k) => do
      let t ← s.onSession P key content k (.drop r)
      return t.goto r .dropped
    | some (.waiting _) => some (s.goto r .dropped)
    | _ => none

/-! ## Sessions that end as they are expected to -/

def endsDead : SessionAction → Bool
  | .readerFails e => isSessionDead (.transport e)
  | _ => true

def sparesRetries (s : ReconnectingSession) (k : Nat) (a : SessionAction) : Bool :=
  (List.range s.requests.length).all fun r =>
    s.requests[r]? != some (.retrying k) || SessionState.spares r a

def currentRuns (s : ReconnectingSession) : Bool := (s.sessions[s.current]?).all (!·.readerDone)

def undisturbed (s : ReconnectingSession) : ReconnectAction → Bool
  | .session k a => endsDead a && s.sparesRetries k a
  | .timeout r =>
    match s.requests[r]? with
    | some (.first k) => s.current == k || s.currentRuns
    | _ => true
  | .retry _ => s.currentRuns
  | _ => true

def quiet : Foreground → Bool
  | .retrying _ | .returned (.error (.transport _)) => false
  | _ => true

structure Inv (s : ReconnectingSession) : Prop where
  sessions : ∀ sess ∈ s.sessions, sess.Errors fun e => isSessionDead (.transport e) = true
  retrying : ∀ {r k : Nat}, s.requests[r]? = some (.retrying k) →
    ∃ sess, s.sessions[k]? = some sess ∧ sess.Running r
  returned : ∀ {r : Nat} {e : TransportError},
    s.requests[r]? ≠ some (.returned (.error (.transport e)))

variable {P key content} {s t : ReconnectingSession}

theorem inv_new : Inv new where
  sessions sess h := by
    obtain rfl := List.mem_singleton.mp h
    exact SessionState.errors_new
  retrying h := by cases h
  returned h := by cases h

theorem onSession_eq_some {k : Nat} {a : SessionAction} (h : s.onSession P key content k a = some t) :
    ∃ sess sess', s.sessions[k]? = some sess ∧ sess.step P (key k) content a = some sess' ∧
      t = { s with sessions := s.sessions.set k sess' } := by
  obtain ⟨sess, hsess, h⟩ := Option.bind_eq_some_iff.mp h
  obtain ⟨sess', hstep, h⟩ := Option.bind_eq_some_iff.mp h
  exact ⟨sess, sess', hsess, hstep, (Option.some.inj h).symm⟩

theorem Inv.onSession (h : s.Inv) (hP : P.chacha20Poly1305.Inverts) {k : Nat} {a : SessionAction}
    (hdead : endsDead a = true)
    (hspares : ∀ {r}, s.requests[r]? = some (.retrying k) → SessionState.spares r a = true)
    (hstep : s.onSession P key content k a = some t) : t.Inv ∧ t.requests = s.requests := by
  obtain ⟨sess, sess', hsess, hsession, rfl⟩ := onSession_eq_some hstep
  have heffect := SessionState.effect_of_step hsession
  have herrors := h.sessions sess (List.mem_of_getElem? hsess)
  refine ⟨⟨?_, ?_, h.returned⟩, rfl⟩
  · intro other hother
    rcases List.mem_or_eq_of_mem_set hother with hother | rfl
    · exact h.sessions other hother
    · refine herrors.of_effect hP rfl rfl ?_ heffect
      rintro e rfl
      exact hdead
  · intro r k' hr
    obtain ⟨old, hold, hrun⟩ := h.retrying hr
    by_cases hk : k' = k
    · subst hk
      obtain rfl := Option.some.inj (hsess.symm.trans hold)
      refine ⟨sess', ?_, hrun.of_effect herrors hP (hspares hr) heffect⟩
      rw [List.getElem?_set_self (List.getElem?_eq_some_iff.mp hsess).1]
    · exact ⟨old, by rw [List.getElem?_set_ne (Ne.symm hk), hold], hrun⟩

theorem get_goto {r r' : Nat} {p q : Foreground} (h : (s.goto r p).requests[r']? = some q) :
    s.requests[r']? = some q ∨ r' = r ∧ q = p := by
  rw [goto, List.getElem?_set] at h
  split_ifs at h with hr hlt
  · exact .inr ⟨hr.symm, (Option.some.inj h).symm⟩
  · exact .inl h

theorem get_append {requests : List Foreground} {r : Nat} {p q : Foreground}
    (h : (requests ++ [p])[r]? = some q) : requests[r]? = some q ∨ q = p := by
  rw [List.getElem?_append] at h
  split_ifs at h
  · exact .inl h
  · exact .inr (List.mem_singleton.mp (List.mem_of_getElem? h))

theorem Inv.goto (h : s.Inv) (r : Nat) {p : Foreground} (hp : quiet p = true) : (s.goto r p).Inv where
  sessions := h.sessions
  retrying {r' k} hr := by
    rcases get_goto hr with hr | ⟨-, rfl⟩
    · exact h.retrying hr
    · cases hp
  returned {r' e} hr := by
    rcases get_goto hr with hr | ⟨-, rfl⟩
    · exact h.returned hr
    · cases hp

theorem Inv.calling (h : s.Inv) (hP : P.chacha20Poly1305.Inverts) {k : Nat} {a : SessionAction}
    (ha : internal a = false) (hstep : s.onSession P key content k a = some t) :
    t.Inv ∧ t.requests = s.requests := by
  cases a with
  | call c => exact h.onSession hP rfl (fun _ => rfl) hstep
  | drop c => exact h.onSession hP rfl (fun _ => rfl) hstep
  | _ => cases ha

theorem Inv.tryAgain (h : s.Inv) (hP : P.chacha20Poly1305.Inverts) {r : Nat}
    (hruns : s.currentRuns = true) (hstep : s.tryAgain P key content r = some t) : t.Inv := by
  obtain ⟨u, hu, hstep⟩ := Option.bind_eq_some_iff.mp hstep
  obtain rfl := Option.some.inj hstep
  obtain ⟨hinv, hrequests⟩ := h.calling hP rfl hu
  obtain ⟨sess, sess', hsess, hcall, rfl⟩ := onSession_eq_some hu
  have hrun : sess.Running r := by
    obtain ⟨hidle, -⟩ := guarded_eq_some.mp hcall
    refine ⟨?_, fun e he => by cases hidle.symm.trans he⟩
    simpa [currentRuns, hsess] using hruns
  have hrun' := hrun.of_effect (h.sessions sess (List.mem_of_getElem? hsess)) hP rfl
    (SessionState.effect_of_step hcall)
  refine ⟨hinv.sessions, ?_, ?_⟩
  · intro r' k hr
    rcases get_goto hr with hr | ⟨rfl, hk⟩
    · exact hinv.retrying hr
    · obtain rfl := Foreground.retrying.inj hk
      refine ⟨sess', ?_, hrun'⟩
      exact List.getElem?_set_self (List.getElem?_eq_some_iff.mp hsess).1
  · intro r' e hr
    rcases get_goto hr with hr | ⟨-, hk⟩
    · exact hinv.returned hr
    · cases hk

theorem result_eq_some {k r : Nat} {x : Except TransportError HapResponse}
    (h : s.result k r = some x) :
    ∃ sess, s.sessions[k]? = some sess ∧ sess.phase r = .returned x := by
  obtain ⟨sess, hsess, h⟩ := Option.bind_eq_some_iff.mp h
  split at h
  · next x' hx =>
    obtain rfl := Option.some.inj h
    exact ⟨sess, hsess, hx⟩
  · cases h

theorem Inv.publish (h : s.Inv) : Inv { s with sessions := s.sessions ++ [.new] } := by
  refine ⟨?_, ?_, h.returned⟩
  · intro sess hsess
    rcases List.mem_append.mp hsess with hsess | hsess
    · exact h.sessions sess hsess
    · obtain rfl := List.mem_singleton.mp hsess
      exact SessionState.errors_new
  · intro r k hr
    obtain ⟨sess, hsess, hrun⟩ := h.retrying hr
    exact ⟨sess, by rw [List.getElem?_append_left (List.getElem?_eq_some_iff.mp hsess).1, hsess],
      hrun⟩

theorem Inv.append (h : s.Inv) (k : Nat) : Inv { s with requests := s.requests ++ [.first k] } := by
  refine ⟨h.sessions, ?_, ?_⟩
  · intro r k hr
    rcases get_append hr with hr | hp
    · exact h.retrying hr
    · cases hp
  · intro r e hr
    rcases get_append hr with hr | hp
    · exact h.returned hr
    · cases hp

theorem Inv.settleFirst (h : s.Inv) {r k : Nat} {x : Except TransportError HapResponse}
    (hx : s.result k r = some x) : (s.goto r (afterFirst k x)).Inv := by
  obtain ⟨sess, hsess, hphase⟩ := result_eq_some hx
  cases x with
  | ok resp => exact h.goto r rfl
  | error e =>
    have hdead := ((h.sessions sess (List.mem_of_getElem? hsess)).phase r).1 e hphase
    rw [afterFirst, if_pos hdead]
    exact h.goto r rfl

theorem Inv.settleRetry (h : s.Inv) {r k : Nat} {x : Except TransportError HapResponse}
    (hr : s.requests[r]? = some (.retrying k)) (hx : s.result k r = some x) :
    (s.goto r (.returned (mapErr .transport x))).Inv := by
  obtain ⟨sess, hsess, hphase⟩ := result_eq_some hx
  cases x with
  | ok resp => exact h.goto r rfl
  | error e =>
    obtain ⟨sess', hsess', hrun⟩ := h.retrying hr
    obtain rfl := Option.some.inj (hsess.symm.trans hsess')
    exact absurd hphase (hrun.2 e)

theorem currentRuns_of_dropped {u : ReconnectingSession} {r k : Nat}
    (hr : s.requests[r]? = some (.first k)) (hcond : s.undisturbed (.timeout r) = true)
    (hu : s.onSession P key content k (.drop r) = some u) (hk : u.current ≠ k) :
    u.currentRuns = true := by
  obtain ⟨sess, sess', -, -, rfl⟩ := onSession_eq_some hu
  have hcurrent : (s.sessions.set k sess').length - 1 = s.current := by
    rw [List.length_set, current]
  have hne : k ≠ s.current := fun heq => hk (hcurrent.trans heq.symm)
  have hruns : s.currentRuns = true := by
    simpa [undisturbed, hr, hne.symm] using hcond
  rw [currentRuns, current, hcurrent, List.getElem?_set_ne hne]
  exact hruns

theorem Inv.dropCall (h : s.Inv) (hP : P.chacha20Poly1305.Inverts) {r k : Nat}
    (hstep : (do
      let u ← s.onSession P key content k (.drop r)
      return u.goto r .dropped) = some t) : t.Inv := by
  obtain ⟨u, hu, hstep⟩ := Option.bind_eq_some_iff.mp hstep
  obtain rfl := Option.some.inj hstep
  exact (h.calling hP rfl hu).1.goto r rfl

theorem inv_step (hP : P.chacha20Poly1305.Inverts) {a : ReconnectAction} (h : s.Inv)
    (hstep : restrict (step P key content) (fun s a => s.undisturbed a = true) s a = some t) :
    t.Inv := by
  obtain ⟨hcond, hstep⟩ := restrict_eq_some.mp hstep
  cases a with
  | session k a =>
    obtain ⟨-, hstep⟩ := Option.ite_none_right_eq_some.mp hstep
    obtain ⟨hdead, hspares⟩ := Bool.and_eq_true_iff.mp hcond
    refine (h.onSession hP hdead ?_ hstep).1
    intro r hr
    have hlt := (List.getElem?_eq_some_iff.mp hr).1
    have hall := List.all_eq_true.mp hspares r (List.mem_range.mpr hlt)
    simpa [hr] using hall
  | publish =>
    obtain rfl := Option.some.inj hstep
    exact h.publish
  | request =>
    obtain ⟨u, hu, hstep⟩ := Option.bind_eq_some_iff.mp hstep
    obtain rfl := Option.some.inj hstep
    exact (h.calling hP rfl hu).1.append _
  | settle r =>
    simp only [step] at hstep
    split at hstep
    · obtain ⟨x, hx, rfl⟩ := Option.map_eq_some_iff.mp hstep
      exact h.settleFirst hx
    · next k hr =>
      obtain ⟨x, hx, rfl⟩ := Option.map_eq_some_iff.mp hstep
      exact h.settleRetry hr hx
    · cases hstep
  | timeout r =>
    simp only [step] at hstep
    split at hstep
    · next k hr =>
      obtain ⟨u, hu, hstep⟩ := Option.bind_eq_some_iff.mp hstep
      have hinv := (h.calling hP rfl hu).1
      split_ifs at hstep with hk
      · obtain rfl := Option.some.inj hstep
        exact hinv.goto r rfl
      · exact hinv.tryAgain hP (currentRuns_of_dropped hr hcond hu hk) hstep
    · cases hstep
  | retry r =>
    simp only [step] at hstep
    split at hstep
    · split_ifs at hstep
      exact h.tryAgain hP hcond hstep
    · cases hstep
  | giveUp r =>
    simp only [step] at hstep
    split at hstep
    · obtain rfl := Option.some.inj hstep
      exact h.goto r rfl
    · cases hstep
  | drop r =>
    simp only [step] at hstep
    split at hstep
    · exact h.dropCall hP hstep
    · exact h.dropCall hP hstep
    · obtain rfl := Option.some.inj hstep
      exact h.goto r rfl
    · cases hstep

/-- Whatever sessions there are and however they end, as long as their reader tasks end with the
end of the stream or a socket error, and no session is over before a second try on it is: a
foreground request returns a response or that the connection is lost, and no error of the
transport. -/
theorem request_hides_session_end {P : Primitives} (hP : P.chacha20Poly1305.Inverts)
    (key : Nat → Arr 32) (content : Nat → Request) (actions : List ReconnectAction)
    {s : ReconnectingSession}
    (h : steps (restrict (step P key content) fun s a => s.undisturbed a = true) new actions = some s)
    {r : Nat} {result : Except ForegroundError HapResponse}
    (hr : s.requests[r]? = some (.returned result)) :
    (∃ resp, result = .ok resp) ∨ result = .error .connectionLost := by
  have hinv : s.Inv := steps_invariant (inv_step hP) actions inv_new h
  cases result with
  | ok resp => exact .inl ⟨resp, rfl⟩
  | error e =>
    cases e with
    | transport e => exact absurd hr hinv.returned
    | connectionLost => exact .inr rfl

def sampleContent (_ : Nat) : Request := SessionState.sampleRequest 1

def sampleSent (k : Nat) : List ReconnectAction :=
  [.session k (.lockResponses 0), .session k (.lockWriter 0), .session k (.sealBlock 0),
    .session k (.accept 0 102), .session k (.flush 0)]

def sampleEnd (k : Nat) (e : TransportError) : List ReconnectAction :=
  [.session k (.readerFails e), .session k (.take 0), .settle 0]

def sampleAnswered (k : Nat) : List ReconnectAction :=
  [.session k (.answer (SessionState.sampleAnswer 200)), .session k .deliver, .session k (.take 0),
    .settle 0]

theorem request_hides_session_end_closed :
    ∃ s, steps (restrict (step plainPrimitives (fun _ => constArr 32 0) sampleContent)
          fun s a => s.undisturbed a = true) new
        (.request :: (sampleSent 0 ++ sampleEnd 0 .connectionClosed ++ [.publish, .retry 0] ++
          sampleSent 1 ++ sampleAnswered 1)) = some s ∧
      ∃ result, s.requests[0]? = some (.returned result) ∧
        ((∃ resp, result = .ok resp) ∨ result = .error .connectionLost) := by
  refine exists_of_view (·.requests[0]?) (some (.returned (.ok (SessionState.sampleAnswer 200))))
    (by decide +kernel) ?_
  intro s hs hr
  exact ⟨_, hr, request_hides_session_end plainPrimitives_honest.aead _ _ _ hs hr⟩

/-- A frame that cannot be opened ends the reader task, and the request returns that error. Or the
session is closed, and so is the one on which the request is tried again. -/
theorem request_returns_session_end :
    (∃ s, steps (step plainPrimitives (fun _ => constArr 32 0) sampleContent) new
        (.request :: (sampleSent 0 ++ sampleEnd 0 .decrypt)) = some s ∧
      s.requests[0]? = some (.returned (.error (.transport .decrypt)))) ∧
    ∃ s, steps (step plainPrimitives (fun _ => constArr 32 0) sampleContent) new
        (.request :: (sampleSent 0 ++ sampleEnd 0 .connectionClosed ++ [.publish, .retry 0] ++
          sampleSent 1 ++ sampleEnd 1 .connectionClosed)) = some s ∧
      s.requests[0]? = some (.returned (.error (.transport .connectionClosed))) := by
  constructor
  · exact exists_of_view (·.requests[0]?) _ (by decide +kernel) fun _ _ hr => hr
  · exact exists_of_view (·.requests[0]?) _ (by decide +kernel) fun _ _ hr => hr

end ReconnectingSession
end HapRust.Controller
