import ClipPic.Failures

/-!
# The profile from its writers to its reader

`createUser` writes nine fields by hand-typed keys and caches the user they decode to; `updateProfile`
overwrites three of them and mirrors that in the cache. The document of `createUser` holds the first
name under `last_name` and the last name under `first_name`, so a profile is read back as it was given,
and kept by an `updateProfile` with the same names, exactly when the two names are equal
(`World.roundTrips_iff`).
-/

namespace ClipPic

/-- The user has the profile that was given, and empty lists. -/
structure User.AsGiven (u : User) (avatar : URL) (username firstName lastName email : String) :
    Prop where
  firstName : u.firstName = firstName
  lastName : u.lastName = lastName
  userName : u.userName = username
  avatar : u.avatar = avatar.description
  email : u.email = email
  rawFollowedAccounts : u.rawFollowedAccounts = []
  rawBlockedAccounts : u.rawBlockedAccounts = []
  rawCollections : u.rawCollections = []

/-- Writing fields that a dictionary has already leaves it as it is. -/
theorem Dictionary.merge_eq_self {α : Type} {d : Dictionary α} {fields : List (String × α)}
    (h : ∀ field ∈ fields, d[field.1]? = some field.2) : d.merge fields = d := by
  induction fields with
  | nil => rfl
  | cons field fields ih =>
    obtain ⟨hfield, hfields⟩ := List.forall_mem_cons.1 h
    refine Std.ExtTreeMap.ext_getElem? fun key => ?_
    rw [merge, ih hfields, getElem?_insert]
    by_cases heq : field.1 = key
    · rw [if_pos heq, ← heq, hfield]
    · rw [if_neg heq]

/-- The client once `createUser` has cached the user. -/
def Client.setUp (c : Client) (user : User) : Client :=
  { c with appUser := some user, setUpShown := false }

namespace World

section profile

variable {b : Backend} {c : Client} {uid email : String}

/-- `createUser` succeeds, and then `updateProfile` with the same avatar and names. What `fetchProfile`
decodes in between is what was given, the cached user is that user, and the update changes neither the
document nor the cached user. -/
def RoundTrips (b : Backend) (c : Client) (uid email : String) (avatar : URL)
    (username firstName lastName : String) (now : ℚ) (token token' : List (String × String)) : Prop :=
  ∃ w w' data user,
    (session b c).alone (.createUser avatar username firstName lastName now) [.succeeds token] =
      some w ∧
    w.backend.users[uid]? = some data ∧ User.init uid data = .ok user ∧
    user.AsGiven avatar username firstName lastName email ∧ (w.clients 0).appUser = some user ∧
    w.alone (.updateProfile avatar firstName lastName) [.succeeds token'] = some w' ∧
    w'.backend.users[uid]? = some data ∧ (w'.clients 0).appUser = some user

/-- After `createUser` the document and the cached user are what it wrote. -/
theorem alone_createUser (b : Backend) (htrap : c.trap = none)
    (hsession : c.currentFirebaseUser = some ⟨uid, some email⟩) (avatar : URL)
    (username firstName lastName : String) (now : ℚ) (token : List (String × String)) :
    ∃ w, (session b c).alone (.createUser avatar username firstName lastName now) [.succeeds token] =
        some w ∧
      w.flights = [] ∧
      w.backend.users[uid]? = some (FireStoreManager.createUserData avatar.description username
        firstName lastName email now) ∧
      w.clients 0 =
        c.setUp (User.created uid avatar.description username firstName lastName email now) := by
  set data := FireStoreManager.createUserData avatar.description username firstName lastName email now
    with hdata
  have hsend : Call.run c (.createUser avatar username firstName lastName now) =
      .send c (.createUser uid data) := by
    simp [Call.run, FireStoreManager.createUser, Client.userUID, hsession, hdata]
  obtain ⟨w, hw, hbackend, hclient, hflights⟩ :=
    alone_exchange (w := session b c) rfl htrap hsend (.succeeds token)
  have hreceive : receive c 0 .done (.createUser uid data) =
      .complete (c.setUp (User.created uid avatar.description username firstName lastName email now))
        none := by
    simp [receive, FireStoreManager.userCreated, hdata, User.init_createUserData, Client.setUp,
      Effect.complete]
  refine ⟨w, hw, ?_, ?_, ?_⟩
  · rw [hflights]
    exact congrArg (fun effect : Effect => effect.sends.map _) hreceive
  · rw [hbackend]
    exact (Dictionary.getElem?_insert ..).trans (if_pos rfl)
  · rw [hclient]
    exact congrArg Effect.client hreceive

/-- A later `updateProfile` of that account. -/
theorem alone_updateProfile {w : World} {data : Document} {user : User} (hflights : w.flights = [])
    (htrap : (w.clients 0).trap = none) (huid : (w.clients 0).userUID = some uid)
    (hdata : w.backend.users[uid]? = some data) (huser : (w.clients 0).appUser = some user)
    (avatar : URL) (firstname lastname : String) (token : List (String × String)) :
    ∃ w', w.alone (.updateProfile avatar firstname lastname) [.succeeds token] = some w' ∧
      w'.backend.users[uid]? =
        some (data.merge (profileFields avatar.description firstname lastname)) ∧
      (w'.clients 0).appUser = some (user.setProfile avatar.description firstname lastname) := by
  have hsend : Call.run (w.clients 0) (.updateProfile avatar firstname lastname) =
      .send (w.clients 0) (.updateProfile uid avatar.description firstname lastname) := by
    simp [Call.run, FireStoreManager.updateProfile, huid]
  obtain ⟨w', hw', hbackend, hclient, -⟩ := alone_exchange hflights htrap hsend (.succeeds token)
  have hperform : w.backend.perform
      (.updateUser uid (profileFields avatar.description firstname lastname)) (.succeeds token) = _ :=
    Backend.perform_updateUser_some hdata token
  refine ⟨w', hw', ?_, ?_⟩
  · rw [hbackend, Request.operation, hperform]
    exact (Dictionary.getElem?_insert ..).trans (if_pos rfl)
  · rw [hclient, Request.operation, hperform]
    simp [receive, FireStoreManager.profileUpdated, Effect.complete, huser]

/-- A first name that is read back was given as the last name as well. -/
theorem RoundTrips.names (htrap : c.trap = none)
    (hsession : c.currentFirebaseUser = some ⟨uid, some email⟩) {avatar : URL}
    {username firstName lastName : String} {now : ℚ} {token token' : List (String × String)}
    (h : RoundTrips b c uid email avatar username firstName lastName now token token') :
    firstName = lastName := by
  obtain ⟨v, v', data, user, hv, hdata, hinit, hgiven, -⟩ := h
  obtain ⟨w, hw, -, hdata', -⟩ :=
    alone_createUser b htrap hsession avatar username firstName lastName now token
  obtain rfl : w = v := Option.some.inj (hw.symm.trans hv)
  obtain rfl := Option.some.inj (hdata.symm.trans hdata')
  rw [User.init_createUserData] at hinit
  obtain rfl := Except.ok.inj hinit
  exact hgiven.lastName

/-- **The profile round trip.** For every avatar, names and e-mail, a successful `createUser` and an
`updateProfile` with the same avatar and names give the profile back and keep it exactly when the first
name and the last name are the same. -/
theorem roundTrips_iff (b : Backend) (htrap : c.trap = none)
    (hsession : c.currentFirebaseUser = some ⟨uid, some email⟩) (avatar : URL)
    (username firstName lastName : String) (now : ℚ) (token token' : List (String × String)) :
    RoundTrips b c uid email avatar username firstName lastName now token token' ↔
      firstName = lastName := by
  constructor
  · exact RoundTrips.names htrap hsession
  · rintro rfl
    obtain ⟨w, hw, hflights, hdata, hclient⟩ :=
      alone_createUser b htrap hsession avatar username firstName firstName now token
    obtain ⟨w', hw', hdata', hclient'⟩ := alone_updateProfile hflights (by rw [hclient]; exact htrap)
      (by rw [hclient, Client.setUp, Client.userUID, hsession]; rfl) hdata (by rw [hclient]; rfl)
      avatar firstName firstName token'
    refine ⟨w, w', _, _, hw, hdata, User.init_createUserData .., ⟨rfl, rfl, rfl, rfl, rfl, rfl, rfl, rfl⟩,
      by rw [hclient]; rfl, hw', ?_, hclient'⟩
    rw [hdata', Dictionary.merge_eq_self]
    simp [profileFields, FireStoreManager.createUserData]

theorem oneName_roundTrips :
    RoundTrips {} newcomer "ann" "ann@mail.com" ⟨"photo", []⟩ "ann" "Ann" "Ann" 0 [] [] :=
  (roundTrips_iff {} rfl rfl _ _ _ _ _ _ _).2 rfl

/-- Two names come back exchanged, in the document and in the cache. -/
theorem twoNames_exchanged :
    (∃ w, (session {} newcomer).alone (.createUser ⟨"photo", []⟩ "ann" "Ann" "Lee" 0) [.succeeds] =
        some w ∧
      (w.clients 0).appUser.map (·.firstName) = some "Lee" ∧
      (w.clients 0).appUser.map (·.lastName) = some "Ann") ∧
    ¬ RoundTrips {} newcomer "ann" "ann@mail.com" ⟨"photo", []⟩ "ann" "Ann" "Lee" 0 [] [] := by
  refine ⟨⟨_, rfl, by decide +kernel, by decide +kernel⟩, fun h => ?_⟩
  exact absurd (RoundTrips.names rfl rfl h) (by decide)

end profile

end World

end ClipPic
