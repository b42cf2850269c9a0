import ClipPic.Library.Runs
import Mathlib.Data.List.Nodup
import Mathlib.Data.List.Perm.Subperm

/-!
# The nonce of an Apple sign-in

`AccountManager` keeps one `currentNonce`: each `signInWithApple` overwrites it and no callback
clears it, while several requests can be waiting for their answers. An authorization is redeemed
with the nonce of the latest request, so it is redeemed with its own exactly when it answers that
one (`redeemed_iff`).
-/

namespace ClipPic

/-- A request to Apple: `nonce` is what it carries, `rawNonce` what was generated for it. -/
structure AppleRequest where
  rawNonce : String
  nonce : String
  deriving DecidableEq

/-- `identityToken`, and what decoding it as UTF-8 gives. -/
inductive IdentityToken
  | missing
  | undecodable
  | text (idTokenString : String)

/-- `ASAuthorizationAppleIDCredential` -/
structure AppleIDCredential where
  user : String
  identityToken : IdentityToken

/-- What is given to `OAuthProvider.credential`. -/
structure FirebaseCredential where
  idToken : String
  rawNonce : String

/-- What `AccountManager` keeps for Apple sign-ins, the requests made and those without an answer,
and each Firebase credential with the request that its authorization answers. -/
structure AppleSignIn where
  currentNonce : Option String := none
  appleAuthorizedUserId : Option String := none
  trap : Option String := none
  made : List AppleRequest := []
  requests : List AppleRequest := []
  credentials : List (AppleRequest × FirebaseCredential) := []

namespace AppleSignIn

/-- A call of `signInWithApple`, for which `randomNonceString` gives `nonce`, or the answer to the
request at a position. -/
inductive Event
  | signInWithApple (nonce : String)
  | didCompleteWithError (i : ℕ)
  | didCompleteWithAuthorization (i : ℕ) (credential : Option AppleIDCredential)

variable (sha256 : String → String)

def signInWithApple (s : AppleSignIn) (nonce : String) : AppleSignIn :=
  { s with
    currentNonce := some nonce
    made := s.made ++ [⟨nonce, sha256 nonce⟩]
    requests := s.requests ++ [⟨nonce, sha256 nonce⟩] }

def invalidState : String :=
  "Invalid state: A login callback was received, but no login request was sent."

/-- The callback for an authorization that answers `request`; the code does not learn which it is.
The credential is `none` where it is not an Apple ID's. -/
def didCompleteWithAuthorization (s : AppleSignIn) (request : AppleRequest) :
    Option AppleIDCredential → AppleSignIn
  | none => s
  | some appleIDCredential =>
    let s := { s with appleAuthorizedUserId := some appleIDCredential.user }
    match s.currentNonce, appleIDCredential.identityToken with
    | none, _ => { s with trap := some invalidState }
    | some nonce, .text idTokenString =>
      { s with credentials := s.credentials ++ [(request, ⟨idTokenString, nonce⟩)] }
    | some _, _ => s

def step (s : AppleSignIn) : Event → Option AppleSignIn
  | .signInWithApple nonce => if s.trap = none then some (s.signInWithApple sha256 nonce) else none
  | .didCompleteWithError i =>
    match s.requests[i]? with
    | some _ => if s.trap = none then some { s with requests := s.requests.eraseIdx i } else none
    | none => none
  | .didCompleteWithAuthorization i credential =>
    match s.requests[i]? with
    | some request =>
      if s.trap = none then
        some (didCompleteWithAuthorization { s with requests := s.requests.eraseIdx i } request
          credential)
      else none
    | none => none

/-- Each authorization was redeemed with the nonce generated for its request, whose hash the request
carried, and none twice. -/
structure Redeemed (s : AppleSignIn) : Prop where
  own : ∀ entry ∈ s.credentials,
    entry.2.rawNonce = entry.1.rawNonce ∧ entry.1.nonce = sha256 entry.2.rawNonce
  once : (s.credentials.map (·.2.rawNonce)).Nodup

/-- A new nonce is not one that was generated before. -/
def Fresh (s : AppleSignIn) : Event → Prop
  | .signInWithApple nonce => nonce ∉ s.made.map (·.rawNonce)
  | _ => True

/-- An authorization with an identity token answers the latest request. -/
def AnswersLatest (s : AppleSignIn) : Event → Prop
  | .didCompleteWithAuthorization i (some ⟨_, .text _⟩) => s.requests[i]? = s.made.getLast?
  | _ => True

instance (s : AppleSignIn) : DecidablePred (Fresh s)
  | .signInWithApple nonce => inferInstanceAs (Decidable (nonce ∉ s.made.map (·.rawNonce)))
  | .didCompleteWithError _ => .isTrue trivial
  | .didCompleteWithAuthorization _ _ => .isTrue trivial

instance (s : AppleSignIn) : DecidablePred (AnswersLatest s)
  | .didCompleteWithAuthorization i (some ⟨_, .text _⟩) =>
    inferInstanceAs (Decidable (s.requests[i]? = s.made.getLast?))
  | .didCompleteWithAuthorization _ (some ⟨_, .missing⟩) => .isTrue trivial
  | .didCompleteWithAuthorization _ (some ⟨_, .undecodable⟩) => .isTrue trivial
  | .didCompleteWithAuthorization _ none => .isTrue trivial
  | .signInWithApple _ => .isTrue trivial
  | .didCompleteWithError _ => .isTrue trivial

/-! ## What one step can do -/

section steps

variable {sha256} {s t : AppleSignIn}

theorem step_cases {e : Event} (h : s.step sha256 e = some t) :
    s.trap = none ∧
    ((∃ nonce, e = .signInWithApple nonce ∧ t = s.signInWithApple sha256 nonce) ∨
    (∃ i request, e = .didCompleteWithError i ∧ s.requests[i]? = some request ∧
      t = { s with requests := s.requests.eraseIdx i }) ∨
    ∃ i credential request, e = .didCompleteWithAuthorization i credential ∧
      s.requests[i]? = some request ∧
      t = didCompleteWithAuthorization { s with requests := s.requests.eraseIdx i } request
        credential) := by
  cases e with
  | signInWithApple nonce =>
    simp only [step, Option.ite_none_right_eq_some, Option.some.injEq] at h
    exact ⟨h.1, .inl ⟨nonce, rfl, h.2.symm⟩⟩
  | didCompleteWithError i =>
    simp only [step] at h
    split at h
    case h_1 request hrequest =>
      simp only [Option.ite_none_right_eq_some, Option.some.injEq] at h
      exact ⟨h.1, .inr (.inl ⟨i, request, rfl, hrequest, h.2.symm⟩)⟩
    case h_2 => cases h
  | didCompleteWithAuthorization i credential =>
    simp only [step] at h
    split at h
    case h_1 request hrequest =>
      simp only [Option.ite_none_right_eq_some, Option.some.injEq] at h
      exact ⟨h.1, .inr (.inr ⟨i, credential, request, rfl, hrequest, h.2.symm⟩)⟩
    case h_2 => cases h

/-- With a nonce, the callback leaves everything else alone: it makes one Firebase credential, or
none where there is no readable identity token. -/
theorem didCompleteWithAuthorization_cases {nonce : String} (hnonce : s.currentNonce = some nonce)
    (request : AppleRequest) (credential : Option AppleIDCredential) :
    (∃ user idToken, credential = some ⟨user, .text idToken⟩ ∧
      s.didCompleteWithAuthorization request credential =
        { s with
          appleAuthorizedUserId := some user
          credentials := s.credentials ++ [(request, ⟨idToken, nonce⟩)] }) ∨
    ((∀ user idToken, credential ≠ some ⟨user, .text idToken⟩) ∧
      ∃ user, s.didCompleteWithAuthorization request credential =
        { s with appleAuthorizedUserId := user }) := by
  rcases credential with _ | ⟨user, _ | _ | idToken⟩
  case none => exact .inr ⟨fun _ _ h => (by cases h), s.appleAuthorizedUserId, rfl⟩
  case some.text =>
    refine .inl ⟨user, idToken, rfl, ?_⟩
    simp only [didCompleteWithAuthorization, hnonce]
  all_goals
    refine .inr ⟨fun _ _ h => (by cases h), some user, ?_⟩
    simp only [didCompleteWithAuthorization, hnonce]

end steps

/-! ## The invariant -/

/-- `currentNonce` is the nonce of the latest request; the requests have different nonces, and each
has at most one answer. -/
structure Paired (s : AppleSignIn) : Prop where
  noTrap : s.trap = none
  current : s.currentNonce = s.made.getLast?.map (·.rawNonce)
  hashed : ∀ request ∈ s.made, request.nonce = sha256 request.rawNonce
  distinct : (s.made.map (·.rawNonce)).Nodup
  answeredOnce : (s.requests ++ s.credentials.map (·.1)).Nodup
  wereMade : ∀ request ∈ s.requests ++ s.credentials.map (·.1), request ∈ s.made

variable {sha256} {s t : AppleSignIn}

theorem paired_start : Paired sha256 {} :=
  ⟨rfl, rfl, fun _ h => (by cases h), .nil, .nil, fun _ h => (by cases h)⟩

theorem Paired.eq_of_rawNonce (h : s.Paired sha256) {r r' : AppleRequest} (hr : r ∈ s.made)
    (hr' : r' ∈ s.made) (hnonce : r.rawNonce = r'.rawNonce) : r = r' :=
  List.inj_on_of_nodup_map h.distinct hr hr' hnonce

/-- A request in flight has a nonce, so no callback stops the application. -/
theorem Paired.exists_last (h : s.Paired sha256) {i : ℕ} {request : AppleRequest}
    (hrequest : s.requests[i]? = some request) :
    ∃ last ∈ s.made, s.made.getLast? = some last ∧ s.currentNonce = some last.rawNonce := by
  have hmade : request ∈ s.made :=
    h.wereMade request (List.mem_append_left _ (List.mem_of_getElem? hrequest))
  have hlast := List.getLast?_eq_some_getLast (List.ne_nil_of_mem hmade)
  refine ⟨_, List.getLast_mem (List.ne_nil_of_mem hmade), hlast, ?_⟩
  rw [h.current, hlast]
  rfl

theorem Paired.signInWithApple (h : s.Paired sha256) {nonce : String}
    (hfresh : nonce ∉ s.made.map (·.rawNonce)) : (s.signInWithApple sha256 nonce).Paired sha256 := by
  obtain ⟨new, hnew⟩ : ∃ new : AppleRequest, new = ⟨nonce, sha256 nonce⟩ := ⟨_, rfl⟩
  have hunmade : new ∉ s.requests ++ s.credentials.map (·.1) := fun hmem =>
    hfresh (List.mem_map.2 ⟨new, h.wereMade new hmem, by rw [hnew]⟩)
  have hperm : (s.requests ++ [new] ++ s.credentials.map (·.1)).Perm
      (new :: (s.requests ++ s.credentials.map (·.1))) := by
    rw [List.append_assoc]
    exact List.perm_middle
  rw [AppleSignIn.signInWithApple, ← hnew]
  refine ⟨h.noTrap, ?_, ?_, ?_, ?_, ?_⟩
  · rw [List.getLast?_concat, hnew]
    rfl
  · exact List.forall_mem_append.2 ⟨h.hashed, List.forall_mem_singleton.2 (by rw [hnew])⟩
  · rw [List.map_append, List.map_singleton, ← List.concat_eq_append, hnew]
    exact (List.nodup_concat _ _).2 ⟨hfresh, h.distinct⟩
  · exact hperm.nodup_iff.2 (List.nodup_cons.2 ⟨hunmade, h.answeredOnce⟩)
  · intro request hrequest
    rcases List.mem_cons.1 (hperm.mem_iff.1 hrequest) with heq | hold
    · exact List.mem_append_right _ (List.mem_singleton.2 heq)
    · exact List.mem_append_left _ (h.wereMade request hold)

/-- Answering a request takes it out of those in flight; a redeemed one stays on record. -/
theorem Paired.answer (h : s.Paired sha256) {i : ℕ} {request : AppleRequest}
    (hrequest : s.requests[i]? = some request) (user : Option String)
    {redeemed : List (AppleRequest × FirebaseCredential)}
    (hredeemed : redeemed = [] ∨ redeemed.map (·.1) = [request]) :
    Paired sha256 { s with
      appleAuthorizedUserId := user
      requests := s.requests.eraseIdx i
      credentials := s.credentials ++ redeemed } := by
  obtain ⟨hi, rfl⟩ := List.getElem?_eq_some_iff.1 hrequest
  have hsub : (s.requests.eraseIdx i ++ (s.credentials ++ redeemed).map (·.1)).Subperm
      (s.requests ++ s.credentials.map (·.1)) := by
    rw [List.map_append]
    rcases hredeemed with rfl | hone
    · rw [List.map_nil, List.append_nil]
      exact ((List.eraseIdx_sublist ..).append_right _).subperm
    · rw [hone, ← List.append_assoc]
      refine List.Perm.subperm ((List.perm_append_singleton _ _).trans ?_)
      exact (List.getElem_cons_eraseIdx_perm hi).append_right _
  obtain ⟨answered, hperm, hanswered⟩ := hsub
  exact ⟨h.noTrap, h.current, h.hashed, h.distinct,
    hperm.nodup_iff.1 (hanswered.nodup h.answeredOnce),
    fun request hmem => h.wereMade request (hanswered.subset (hperm.mem_iff.2 hmem))⟩

theorem Paired.step {e : Event} (h : s.Paired sha256) (hfresh : Fresh s e)
    (hstep : s.step sha256 e = some t) : t.Paired sha256 := by
  obtain ⟨-, ⟨nonce, rfl, rfl⟩ | ⟨i, request, rfl, hrequest, rfl⟩ |
    ⟨i, credential, request, rfl, hrequest, rfl⟩⟩ := step_cases hstep
  · exact h.signInWithApple hfresh
  · simpa using h.answer hrequest s.appleAuthorizedUserId (.inl rfl)
  · obtain ⟨last, -, -, hnonce⟩ := h.exists_last hrequest
    obtain ⟨user, idToken, -, heq⟩ | ⟨-, user, heq⟩ := didCompleteWithAuthorization_cases
      (s := { s with requests := s.requests.eraseIdx i }) hnonce request credential
    · rw [heq]
      exact h.answer hrequest _ (.inr rfl)
    · rw [heq]
      simpa using h.answer hrequest user (.inl rfl)

/-! ## Which authorizations are redeemed with their nonce -/

/-- The next credential is made with its own nonce, which no other has, exactly when its
authorization answers the latest request. -/
theorem Paired.redeemed_step_iff {e : Event} (h : s.Paired sha256) (hs : s.Redeemed sha256)
    (hstep : s.step sha256 e = some t) : t.Redeemed sha256 ↔ AnswersLatest s e := by
  obtain ⟨-, ⟨nonce, rfl, rfl⟩ | ⟨i, request, rfl, hrequest, rfl⟩ |
    ⟨i, credential, request, rfl, hrequest, rfl⟩⟩ := step_cases hstep
  · exact iff_of_true ⟨hs.own, hs.once⟩ trivial
  · exact iff_of_true ⟨hs.own, hs.once⟩ trivial
  obtain ⟨last, hlast, hgetLast, hnonce⟩ := h.exists_last hrequest
  obtain ⟨user, idToken, rfl, heq⟩ | ⟨hnone, user, heq⟩ := didCompleteWithAuthorization_cases
    (s := { s with requests := s.requests.eraseIdx i }) hnonce request credential
  · have hmem := List.mem_of_getElem? hrequest
    have hmade : request ∈ s.made := h.wereMade request (List.mem_append_left _ hmem)
    rw [heq]
    simp only [AnswersLatest, hrequest, hgetLast, Option.some.injEq]
    constructor
    · rintro ⟨hown, -⟩
      have hpair := (hown (request, ⟨idToken, last.rawNonce⟩) (by simp)).1
      exact h.eq_of_rawNonce hmade hlast hpair.symm
    · rintro rfl
      refine ⟨List.forall_mem_append.2 ⟨hs.own, List.forall_mem_singleton.2 ⟨rfl, ?_⟩⟩, ?_⟩
      · exact h.hashed request hmade
      · rw [List.map_append, List.map_singleton, ← List.concat_eq_append, List.nodup_concat]
        refine ⟨fun hused => ?_, hs.once⟩
        -- the nonce would belong to a request that was answered before
        obtain ⟨entry, hentry, hsame⟩ := List.mem_map.1 hused
        have hanswered : entry.1 ∈ s.credentials.map (·.1) := List.mem_map_of_mem hentry
        have hsameRequest : entry.1 = request :=
          h.eq_of_rawNonce (h.wereMade _ (List.mem_append_right _ hanswered)) hmade
            ((hs.own entry hentry).1.symm.trans hsame)
        exact (List.nodup_append'.1 h.answeredOnce).2.2 hmem (hsameRequest ▸ hanswered)
  · rw [heq]
    refine iff_of_true ⟨hs.own, hs.once⟩ ?_
    rcases credential with _ | ⟨user, _ | _ | idToken⟩
    case some.text => exact absurd rfl (hnone user idToken)
    all_goals trivial

theorem redeemed_start : Redeemed sha256 {} := ⟨fun _ h => (by cases h), .nil⟩

/-- No callback finds that no request was sent. -/
theorem noTrap {es : List Event} (hfresh : Runs.Guarded (step sha256) Fresh {} es)
    (hrun : Runs.run (step sha256) {} es = some s) : s.trap = none :=
  (hfresh.invariant (I := Paired sha256) (fun _ _ _ h hfresh hstep => h.step hfresh hstep)
    paired_start hrun).noTrap

/-- **In a run in which no nonce is generated twice, each authorization is redeemed with the nonce
of its own request, and no nonce is redeemed twice, exactly when every authorization with an
identity token answers the latest request.** -/
theorem redeemed_iff {es : List Event} (hfresh : Runs.Guarded (step sha256) Fresh {} es)
    (hrun : Runs.run (step sha256) {} es = some s) :
    Runs.Always (step sha256) (Redeemed sha256) {} es ↔
      Runs.Guarded (step sha256) AnswersLatest {} es :=
  hfresh.always_iff (I := Paired sha256) (fun _ _ _ h hfresh hstep => h.step hfresh hstep)
    (fun _ _ _ h hs _ hstep => h.redeemed_step_iff hs hstep) paired_start redeemed_start hrun

/-! ## Examples -/

/-- SHA-256 of the two nonces of the examples. -/
def hashes (nonce : String) : String :=
  if nonce = "a" then "ca978112ca1bbdcafac231b39a23dc4da786eff8147c4e72b9807785afee48bb"
  else if nonce = "b" then "3e23e8160039594a33894f6564e1b1348bbd7a0088d42c4acb73eeaed59c009d"
  else ""

/-- The first request fails, then the second is answered. -/
def secondAttempt : List Event :=
  [.signInWithApple "a", .didCompleteWithError 0, .signInWithApple "b",
   .didCompleteWithAuthorization 0 (some ⟨"ann", .text "token"⟩)]

theorem secondAttempt_redeemed : ∃ s, Runs.run (step hashes) {} secondAttempt = some s ∧
    s.credentials.length = 1 ∧ Runs.Always (step hashes) (Redeemed hashes) {} secondAttempt := by
  obtain ⟨s, hrun, hone⟩ : ∃ s, Runs.run (step hashes) {} secondAttempt = some s ∧
      s.credentials.length = 1 := Runs.exists_of_any (by decide +kernel)
  exact ⟨s, hrun, hone, (redeemed_iff (by decide +kernel) hrun).2 (by decide +kernel)⟩

/-- Two requests are made before the first is answered: both authorizations are redeemed with the
nonce of the second. -/
theorem twoRequests_share_nonce : ∃ s,
    Runs.run (step hashes) {} [.signInWithApple "a", .signInWithApple "b",
      .didCompleteWithAuthorization 0 (some ⟨"ann", .text "token"⟩),
      .didCompleteWithAuthorization 0 (some ⟨"ann", .text "token"⟩)] = some s ∧
    s.credentials.map (fun entry => (entry.1.rawNonce, entry.2.rawNonce)) = [("a", "b"), ("b", "b")] ∧
    ¬ Redeemed hashes s := by
  obtain ⟨s, hrun, hnonces⟩ : ∃ s,
      Runs.run (step hashes) {} [.signInWithApple "a", .signInWithApple "b",
        .didCompleteWithAuthorization 0 (some ⟨"ann", .text "token"⟩),
        .didCompleteWithAuthorization 0 (some ⟨"ann", .text "token"⟩)] = some s ∧
      s.credentials.map (fun entry => (entry.1.rawNonce, entry.2.rawNonce)) =
        [("a", "b"), ("b", "b")] := Runs.exists_of_any (by decide +kernel)
  refine ⟨s, hrun, hnonces, fun hredeemed => ?_⟩
  have hfirst : ("a", "b") ∈ s.credentials.map fun entry => (entry.1.rawNonce, entry.2.rawNonce) := by
    rw [hnonces]
    exact List.mem_cons_self
  obtain ⟨entry, hentry, heq⟩ := List.mem_map.1 hfirst
  obtain ⟨hraw, hused⟩ := Prod.mk.inj heq
  have hown := (hredeemed.own entry hentry).1
  rw [hraw, hused] at hown
  exact absurd hown (by decide)

end AppleSignIn

end ClipPic
