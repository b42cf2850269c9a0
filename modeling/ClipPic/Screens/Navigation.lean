import ClipPic.Account.AuthQueue

/-!
# The tabs and the login gate

`TabBarViewController` with its four navigation stacks, next to the rest of the application. A tab other
than Home, a post and the publishing screen open only for a user who is logged in; signing out and
deleting the account lead back to the Home tab, the latter in the closure that runs when Auth has
deleted the account. What stays on the stack of the Home tab is not looked at, nor that Auth may sign its
user out by itself; `Navigation.onlyFeed_iff` says what follows for who is not logged in. Sheets and
alerts cover a screen and leave the stacks as they are.
-/

namespace ClipPic

/-! ## Tabs and screens -/

/-- The tabs, in the order of `addTabs`. -/
inductive Tab
  | home
  | search
  | images
  | profile
  deriving DecidableEq

/-- The screens that are pushed over the first one of a tab. -/
inductive PushedScreen
  | publish
  | post (postId : String)
  | creatorProfile (userId : String)
  | settings
  | editProfile
  | imageSearch
  | translateText
  deriving DecidableEq

structure TabBarViewController where
  selectedIndex : Tab := .home
  /-- What is pushed in each tab, the top screen first. -/
  pushed : Tab → List PushedScreen := fun _ => []

/-- What a user does, and what a screen does to its navigation stack when an answer arrives. -/
inductive Tap
  | selectTab (tab : Tab)
  | publishPost
  | selectItem (postId : String)
  | creatorProfile (userId : String)
  | settings
  | accountSetting
  | imageSearch
  | translateText
  | back (tab : Tab)
  | popToRoot (tab : Tab)

namespace TabBarViewController

/-- The top screen of the selected tab; `none` is the first screen of the tab. -/
def top (bar : TabBarViewController) : Option PushedScreen := (bar.pushed bar.selectedIndex).head?

def pushViewController (bar : TabBarViewController) (screen : PushedScreen) : TabBarViewController :=
  { bar with pushed :=
      Function.update bar.pushed bar.selectedIndex (screen :: bar.pushed bar.selectedIndex) }

/-- `tabBarController(_:shouldSelect:)`; where it says no, the sign-in page is presented. -/
def shouldSelect (isLogin : Bool) (tab : Tab) : Bool := tab = .home || isLogin

/-- The screen that a tap opens; `none` where the screen on top has no such control. -/
def opens (bar : TabBarViewController) : Tap → Option PushedScreen
  | .publishPost => if bar.selectedIndex = .home ∧ bar.top = none then some .publish else none
  | .selectItem postId =>
    match bar.selectedIndex, bar.top with
    | .home, none | .profile, none | _, some (.creatorProfile _) => some (.post postId)
    | _, _ => none
  | .creatorProfile userId =>
    match bar.top with
    | some (.post _) => some (.creatorProfile userId)
    | _ => none
  | .settings => if bar.selectedIndex = .profile ∧ bar.top = none then some .settings else none
  | .accountSetting => if bar.top = some .settings then some .editProfile else none
  | .imageSearch => if bar.selectedIndex = .images ∧ bar.top = none then some .imageSearch else none
  | .translateText =>
    if bar.selectedIndex = .images ∧ bar.top = none then some .translateText else none
  | _ => none

/-- The feed asks for a login before it opens a post or the publishing screen. -/
def admits (bar : TabBarViewController) (isLogin : Bool) : Bool :=
  isLogin || !(bar.selectedIndex = .home && bar.top = none)

def tap (bar : TabBarViewController) (isLogin : Bool) : Tap → Option TabBarViewController
  | .selectTab tab => some (if shouldSelect isLogin tab then { bar with selectedIndex := tab } else bar)
  | .back tab => some { bar with pushed := Function.update bar.pushed tab (bar.pushed tab).tail }
  | .popToRoot tab => some { bar with pushed := Function.update bar.pushed tab [] }
  | t => (bar.opens t).map fun screen => if bar.admits isLogin then bar.pushViewController screen else bar

/-- The completion of `signOut` and `deleteAccount`: the stack of the settings screen, which is the one
of the Profile tab, is popped. -/
def leaveSettings (bar : TabBarViewController) : TabBarViewController where
  selectedIndex := .home
  pushed := if .settings ∈ bar.pushed .profile then Function.update bar.pushed .profile [] else bar.pushed

/-- The feed is on screen. -/
def ShowsFeed (bar : TabBarViewController) : Prop := bar.selectedIndex = .home ∧ bar.pushed .home = []

theorem top_eq_none {bar : TabBarViewController} : bar.top = none ↔ bar.pushed bar.selectedIndex = [] :=
  List.head?_eq_none_iff

@[simp] theorem leaveSettings_selectedIndex (bar : TabBarViewController) :
    bar.leaveSettings.selectedIndex = .home := rfl

@[simp] theorem leaveSettings_home (bar : TabBarViewController) :
    bar.leaveSettings.pushed .home = bar.pushed .home := by
  simp only [leaveSettings]
  split <;> simp

variable {bar bar' : TabBarViewController}

/-- Without a login no tab but Home is selected. -/
theorem selectedIndex_of_tap {t : Tap} (h : bar.tap false t = some bar')
    (hhome : bar.selectedIndex = .home) : bar'.selectedIndex = .home := by
  have hopens (screen : Option PushedScreen) (hscreen : (screen.map fun screen =>
      if bar.admits false then bar.pushViewController screen else bar) = some bar') :
      bar'.selectedIndex = .home := by
    obtain ⟨screen, -, rfl⟩ := Option.map_eq_some_iff.1 hscreen
    split <;> exact hhome
  cases t with
  | selectTab tab =>
    obtain rfl := Option.some.inj h
    split
    case isTrue hselect => simpa [shouldSelect] using hselect
    case isFalse => exact hhome
  | back tab | popToRoot tab => exact Option.some.inj h ▸ hhome
  | _ => exact hopens _ h

/-- Nor is anything opened from the feed. -/
theorem showsFeed_of_tap {t : Tap} (h : bar.tap false t = some bar') (hfeed : bar.ShowsFeed) :
    bar'.ShowsFeed := by
  refine ⟨selectedIndex_of_tap h hfeed.1, ?_⟩
  have hadmits : bar.admits false = false := by
    simp [admits, hfeed.1, top_eq_none, hfeed.2]
  have hopens (screen : Option PushedScreen) (hscreen : (screen.map fun screen =>
      if bar.admits false then bar.pushViewController screen else bar) = some bar') :
      bar'.pushed .home = [] := by
    obtain ⟨screen, -, rfl⟩ := Option.map_eq_some_iff.1 hscreen
    rw [hadmits]
    exact hfeed.2
  cases t with
  | selectTab tab =>
    obtain rfl := Option.some.inj h
    split <;> exact hfeed.2
  | back tab =>
    obtain rfl := Option.some.inj h
    by_cases htab : tab = .home
    · subst htab
      simp [hfeed.2]
    · simpa [Function.update_of_ne (Ne.symm htab)] using hfeed.2
  | popToRoot tab =>
    obtain rfl := Option.some.inj h
    by_cases htab : tab = .home
    · subst htab
      simp
    · simpa [Function.update_of_ne (Ne.symm htab)] using hfeed.2
  | _ => exact hopens _ h

end TabBarViewController

/-! ## The end of a session -/

section login

variable {c c' : Client} {call : Call} {request : Request} {answer : Answer}

theorem Client.isLogin_eq_true : c.isLogin = true ↔ c.currentFirebaseUser ≠ none ∧ c.appUser ≠ none := by
  simp [isLogin, Option.isSome_iff_ne_none]

theorem Call.Changes.isLogin (h : call.Changes c c') (hlogin : c.isLogin = true)
    (hcall : call ≠ .signOut false) : c'.isLogin = true := by
  cases h with
  | signOut => exact absurd rfl hcall
  | _ => exact hlogin

theorem Request.Changes.isLogin (h : request.Changes c answer c') (hlogin : c.isLogin = true)
    (hrequest : request.asksAuth = false) : c'.isLogin = true := by
  rw [Client.isLogin_eq_true] at hlogin ⊢
  cases h with
  | deleted | signedIn => cases hrequest
  | profile | created => exact ⟨hlogin.1, by simp⟩
  | profileUpdated | listWritten => exact ⟨hlogin.1, by simpa using hlogin.2⟩
  | _ => exact hlogin

@[simp] theorem AuthClosure.run_isLogin (closure : AuthClosure) :
    (closure.run c).client.isLogin = c.isLogin := by
  cases closure with
  | userDeleted => rfl
  | signedIn =>
    simp only [run, FireStoreManager.fetchProfile]
    split <;> rfl

end login

/-- Without Auth a login is lost at `signOut` only. -/
theorem World.isLogin_of_localStep {w w' : World} {e : World.LocalEvent}
    (hw : w.Meets AuthWorld.authFree) (h : w.localStep e = some w') {d : ℕ}
    (hlogin : (w.clients d).isLogin = true) (hsignOut : e.event ≠ .call d (.signOut false)) :
    (w'.clients d).isLogin = true := by
  obtain ⟨event, laid⟩ := e
  obtain ⟨d', call, rfl, -, rfl⟩ | ⟨i, outcome, f, rfl, -, -, rfl⟩ |
    ⟨i, now, d', request, answer, rfl, hf, -, rfl⟩ := localStep_cases h
  · by_cases hd : d = d'
    · subst hd
      rw [absorb_clients_self]
      refine (call.changes (c := w.clients d)).isLogin hlogin ?_
      rintro rfl
      exact hsignOut rfl
    · rwa [absorb_clients_of_ne w d' _ hd]
  · exact hlogin
  · by_cases hd : d = d'
    · subst hd
      rw [absorb_clients_self]
      exact (receive_changes request).isLogin hlogin (hw.request _ (List.mem_of_getElem? hf))
    · rwa [absorb_clients_of_ne _ d' _ hd]

namespace AuthWorld

variable {a a' : AuthWorld} {e : Event} {d : ℕ}

/-- A deletion has succeeded on the device, and its closure is still to run. -/
def Deleting (a : AuthWorld) (d : ℕ) : Prop := .userDeleted ∈ a.closures d

instance (a : AuthWorld) (d : ℕ) : Decidable (a.Deleting d) := by
  unfold Deleting
  infer_instance

/-- Nobody is logged in on the device, and no deletion is about to lead away from where it is. -/
def LoggedOut (a : AuthWorld) (d : ℕ) : Prop :=
  (a.world.clients d).isLogin = false ∧ ¬ a.Deleting d

/-- The device whose settings screen gets its completion called, also by a `signOut` that throws. -/
def completesSettings (a : AuthWorld) : Event → Option ℕ
  | .app ⟨.call d (.signOut _), _⟩ => some d
  | .closure d => if (a.closures d).head? = some .userDeleted then some d else none
  | _ => none

/-- The device that the event leaves logged out: at `signOut`, at the last closure of a deletion, and
where Auth signs its user out. -/
def logsOut (a : AuthWorld) : Event → Option ℕ
  | .app ⟨.call d (.signOut false), _⟩ => if a.Deleting d then none else some d
  | .closure d =>
    if (a.closures d).head? = some .userDeleted ∧ (a.world.clients d).isLogin = false ∧
      .userDeleted ∉ (a.closures d).tail then some d else none
  | .signOutIfTokenIsInvalid d => if a.Deleting d then none else some d
  | _ => none

theorem LoggedOut.before (h : a'.LoggedOut d)
    (hlogin : (a'.world.clients d).isLogin = false → (a.world.clients d).isLogin = false)
    (hdeleting : a.Deleting d → a'.Deleting d) : a.LoggedOut d :=
  ⟨hlogin h.1, fun hbefore => h.2 (hdeleting hbefore)⟩

/-- There a device is logged out. -/
theorem loggedOut_of_logsOut (h : a.Changes e a') (hd : a.logsOut e = some d) : a'.LoggedOut d := by
  unfold logsOut at hd
  split at hd
  case h_1 d' laid =>
    obtain ⟨hdeleting, hd⟩ := Option.ite_none_left_eq_some.1 hd
    obtain rfl := Option.some.inj hd
    cases h with
    | app _ hstep =>
      obtain ⟨_, _, ⟨⟩, -, rfl⟩ | ⟨_, _, _, ⟨⟩, -⟩ | ⟨_, _, _, _, _, ⟨⟩, -⟩ :=
        World.localStep_cases hstep
      exact ⟨by rw [World.absorb_clients_self]; rfl, hdeleting⟩
  case h_2 d' =>
    obtain ⟨⟨-, hlogin, hrest⟩, hd⟩ := Option.ite_none_right_eq_some.1 hd
    obtain rfl := Option.some.inj hd
    cases h with
    | closure hclosures =>
      rw [hclosures] at hrest
      exact ⟨by simpa using hlogin, by simpa [Deleting] using hrest⟩
  case h_3 d' =>
    obtain ⟨hdeleting, hd⟩ := Option.ite_none_left_eq_some.1 hd
    obtain rfl := Option.some.inj hd
    cases h
    exact ⟨by simp [Client.isLogin], hdeleting⟩
  case h_4 => cases hd

/-- Nowhere else is it. -/
theorem loggedOut_of_changes (ha : a.world.Meets authFree) (h : a.Changes e a')
    (hloggedOut : a'.LoggedOut d) : a.LoggedOut d ∨ a.logsOut e = some d := by
  cases h with
  | @app e w hevent h =>
    by_cases hsignOut : e.event = .call d (.signOut false)
    · have hdeleting : ¬ a.Deleting d := hloggedOut.2
      obtain ⟨event, laid⟩ := e
      cases hsignOut
      exact .inr (if_neg hdeleting)
    · refine .inl (hloggedOut.before (fun hlogin => ?_) id)
      by_contra hbefore
      have hafter := World.isLogin_of_localStep ha h (by simpa using hbefore) hsignOut
      rw [hafter] at hlogin
      cases hlogin
  | signIn | deleteUser | failed => exact .inl hloggedOut
  | @succeeded i d' task =>
    left
    by_cases hd : d = d'
    · subst hd
      cases task with
      | signIn account =>
        refine hloggedOut.before (fun hlogin => ?_) fun hdeleting => ?_
        · have hnone : (a.world.clients d).appUser = none := by
            simpa [succeed, Client.isLogin] using hlogin
          simp [Client.isLogin, hnone]
        · simpa [succeed, Deleting] using hdeleting
      | delete user => exact absurd (by simp [succeed, Deleting]) hloggedOut.2
    · refine hloggedOut.before (fun hlogin => ?_) fun hdeleting => ?_
      · rwa [succeed_clients_of_ne hd] at hlogin
      · rwa [Deleting, succeed_closures_of_ne hd]
  | signedOut d' =>
    by_cases hd : d = d'
    · subst hd
      exact .inr (if_neg hloggedOut.2)
    · refine .inl (hloggedOut.before (fun hlogin => ?_) id)
      rwa [← World.updateCurrentUser_of_ne hd]
  | @closure d' closure rest hclosures =>
    by_cases hd : d = d'
    · subst hd
      obtain ⟨hlogin, hdeleting⟩ := hloggedOut
      have hbefore : (a.world.clients d).isLogin = false := by simpa using hlogin
      have hrest : .userDeleted ∉ rest := by simpa [Deleting] using hdeleting
      cases closure with
      | signedIn => exact .inl ⟨hbefore, by simpa [Deleting, hclosures] using hrest⟩
      | userDeleted => exact .inr (if_pos ⟨by rw [hclosures]; rfl, hbefore, by rwa [hclosures]⟩)
    · refine .inl (hloggedOut.before (fun hlogin => ?_) fun hdeleting => ?_)
      · rwa [← World.absorb_clients_of_ne a.world d' _ hd]
      · simpa [Deleting, hd] using hdeleting

end AuthWorld

/-! ## The tabs of every device -/

structure Navigation where
  auth : AuthWorld
  tabBars : ℕ → TabBarViewController := fun _ => {}

/-- What happens next: something in the rest of the application, or on the screen of a device. -/
inductive Navigation.Event
  | auth (e : AuthWorld.Event)
  | tap (device : ℕ) (tap : Tap)

namespace Navigation

/-- The tabs after an event of the rest of the application. -/
def react (n : Navigation) (e : AuthWorld.Event) (d : ℕ) : TabBarViewController :=
  if n.auth.completesSettings e = some d then (n.tabBars d).leaveSettings else n.tabBars d

def step (n : Navigation) : Event → Option Navigation
  | .auth e => (n.auth.step e).map fun a => { auth := a, tabBars := n.react e }
  | .tap d t =>
    if (n.auth.world.clients d).trap = none then
      ((n.tabBars d).tap (n.auth.world.clients d).isLogin t).map fun bar =>
        { n with tabBars := Function.update n.tabBars d bar }
    else none

/-- The application is launched for the first time on every device. -/
def launch (b : Backend) : Navigation := { auth := AuthWorld.launch b }

/-- Who is logged out is on the Home tab. -/
def Confined (n : Navigation) : Prop :=
  ∀ d, n.auth.LoggedOut d → (n.tabBars d).selectedIndex = .home

/-- Who is logged out sees the feed. -/
def OnlyFeed (n : Navigation) : Prop := ∀ d, n.auth.LoggedOut d → (n.tabBars d).ShowsFeed

/-- A device that the event leaves logged out is on the Home tab, or is led there. -/
def EndsAtHome (n : Navigation) : Event → Prop
  | .auth e => ∀ d ∈ n.auth.logsOut e,
    n.auth.completesSettings e = some d ∨ (n.tabBars d).selectedIndex = .home
  | .tap .. => True

/-- And nothing is pushed over the feed there. -/
def EndsAtFeed (n : Navigation) : Event → Prop
  | .auth e => ∀ d ∈ n.auth.logsOut e,
    (n.auth.completesSettings e = some d ∨ (n.tabBars d).selectedIndex = .home) ∧
      (n.tabBars d).pushed .home = []
  | .tap .. => True

instance (n : Navigation) (e : Event) : Decidable (n.EndsAtHome e) := by
  unfold EndsAtHome
  split <;> infer_instance

instance (n : Navigation) (e : Event) : Decidable (n.EndsAtFeed e) := by
  unfold EndsAtFeed
  split <;> infer_instance

variable {n n' : Navigation} {e : Event} {b : Backend}

theorem step_cases (h : n.step e = some n') :
    (∃ e' a, e = .auth e' ∧ n.auth.step e' = some a ∧ n' = { auth := a, tabBars := n.react e' }) ∨
    ∃ d t bar, e = .tap d t ∧ (n.tabBars d).tap (n.auth.world.clients d).isLogin t = some bar ∧
      n' = { n with tabBars := Function.update n.tabBars d bar } := by
  cases e with
  | auth e' =>
    obtain ⟨a, ha, rfl⟩ := Option.map_eq_some_iff.1 h
    exact .inl ⟨e', a, rfl, ha, rfl⟩
  | tap d t =>
    simp only [step, Option.ite_none_right_eq_some, Option.map_eq_some_iff] at h
    obtain ⟨-, bar, hbar, rfl⟩ := h
    exact .inr ⟨d, t, bar, rfl, hbar, rfl⟩

@[simp] theorem react_home (n : Navigation) (e : AuthWorld.Event) (d : ℕ) :
    (n.react e d).pushed .home = (n.tabBars d).pushed .home := by
  unfold react
  split <;> simp

theorem react_selectedIndex {e : AuthWorld.Event} {d : ℕ} :
    (n.react e d).selectedIndex = .home ↔
      n.auth.completesSettings e = some d ∨ (n.tabBars d).selectedIndex = .home := by
  unfold react
  split
  case isTrue hcompletes => simp [hcompletes]
  case isFalse hother => simp [hother]

theorem react_showsFeed {e : AuthWorld.Event} {d : ℕ} :
    (n.react e d).ShowsFeed ↔
      (n.auth.completesSettings e = some d ∨ (n.tabBars d).selectedIndex = .home) ∧
        (n.tabBars d).pushed .home = [] := by
  rw [TabBarViewController.ShowsFeed, react_selectedIndex, react_home]

theorem step_authFree (hn : n.auth.world.Meets AuthWorld.authFree) (h : n.step e = some n') :
    n'.auth.world.Meets AuthWorld.authFree := by
  obtain ⟨e', a, rfl, ha, rfl⟩ | ⟨d', t, bar, rfl, hbar, rfl⟩ := step_cases h
  · exact AuthWorld.step_authFree hn ha
  · exact hn

/-- What taps without a login and the way back from the settings keep is true of all who are logged out,
if it is where they are left so. -/
theorem loggedOut_step_iff {Q : TabBarViewController → Prop}
    (htap : ∀ bar bar' t, TabBarViewController.tap bar false t = some bar' → Q bar → Q bar')
    (hreact : ∀ e d, Q (n.tabBars d) → Q (n.react e d))
    (hfree : n.auth.world.Meets AuthWorld.authFree)
    (hn : ∀ d, n.auth.LoggedOut d → Q (n.tabBars d)) (h : n.step e = some n') :
    (∀ d, n'.auth.LoggedOut d → Q (n'.tabBars d)) ↔
      ∀ e', e = .auth e' → ∀ d ∈ n.auth.logsOut e', Q (n.react e' d) := by
  obtain ⟨e', a, rfl, ha, rfl⟩ | ⟨d', t, bar, rfl, hbar, rfl⟩ := step_cases h
  · have hchanges := AuthWorld.changes_of_step ha
    constructor
    · rintro hafter _ ⟨⟩ d hd
      exact hafter d (AuthWorld.loggedOut_of_logsOut hchanges hd)
    · intro hends d hloggedOut
      rcases AuthWorld.loggedOut_of_changes hfree hchanges hloggedOut with hbefore | hd
      · exact hreact e' d (hn d hbefore)
      · exact hends e' rfl d hd
  · refine iff_of_true (fun d hloggedOut => ?_) (by simp)
    by_cases hd : d = d'
    · subst hd
      rw [hloggedOut.1] at hbar
      simpa using htap _ _ t hbar (hn d hloggedOut)
    · simpa [Function.update_of_ne hd] using hn d hloggedOut

theorem confined_step_iff (hfree : n.auth.world.Meets AuthWorld.authFree) (hn : n.Confined)
    (h : n.step e = some n') : n'.Confined ↔ n.EndsAtHome e := by
  have hiff := loggedOut_step_iff (Q := fun bar => bar.selectedIndex = .home)
    (fun _ _ _ htap hhome => TabBarViewController.selectedIndex_of_tap htap hhome)
    (fun _ _ hhome => react_selectedIndex.2 (.inr hhome)) hfree hn h
  refine hiff.trans ?_
  cases e with
  | auth e => simp [EndsAtHome, react_selectedIndex]
  | tap => simp [EndsAtHome]

theorem onlyFeed_step_iff (hfree : n.auth.world.Meets AuthWorld.authFree) (hn : n.OnlyFeed)
    (h : n.step e = some n') : n'.OnlyFeed ↔ n.EndsAtFeed e := by
  have hiff := loggedOut_step_iff (Q := TabBarViewController.ShowsFeed)
    (fun _ _ _ htap hfeed => TabBarViewController.showsFeed_of_tap htap hfeed)
    (fun _ _ hfeed => react_showsFeed.2 ⟨.inr hfeed.1, hfeed.2⟩) hfree hn h
  refine hiff.trans ?_
  cases e with
  | auth e => simp [EndsAtFeed, react_showsFeed]
  | tap => simp [EndsAtFeed]

/-- **The login gate.** Take any run of taps on any devices, of Auth's queues and of everything else that
happens there and on the server. Who is logged out is always on the Home tab exactly when Auth signs its
user out by itself on the Home tab only; and always sees nothing but the feed exactly when this, each
`signOut` and the last closure of each deletion come while nothing is pushed over the feed. -/
theorem onlyFeed_iff {es : List Event} (h : Runs.run step (launch b) es = some n) :
    (Runs.Always step Confined (launch b) es ↔ Runs.Guarded step EndsAtHome (launch b) es) ∧
      (Runs.Always step OnlyFeed (launch b) es ↔ Runs.Guarded step EndsAtFeed (launch b) es) := by
  have hstart : (launch b).auth.world.Meets AuthWorld.authFree :=
    ⟨trivial, fun _ => trivial, fun _ hf => (by cases hf), fun _ _ _ _ => trivial⟩
  constructor
  · exact Runs.always_iff_guarded (I := fun n => n.auth.world.Meets AuthWorld.authFree)
      (fun _ _ _ hn hstep => step_authFree hn hstep)
      (fun _ _ _ hfree hn hstep => confined_step_iff hfree hn hstep) hstart (fun _ _ => rfl) h
  · exact Runs.always_iff_guarded (I := fun n => n.auth.world.Meets AuthWorld.authFree)
      (fun _ _ _ hn hstep => step_authFree hn hstep)
      (fun _ _ _ hfree hn hstep => onlyFeed_step_iff hfree hn hstep) hstart
      (fun _ _ => ⟨rfl, rfl⟩) h

/-- Ann signs in and sets her account up. -/
def annLogsIn : List Event :=
  [.signIn 0 ⟨"ann", some "ann@mail.com"⟩, .finish 0 true, .closure 0, .app ⟨.serve 0 .succeeds, []⟩,
   .app ⟨.deliver 0 0, []⟩, .app ⟨.call 0 (.createUser ⟨"photo", []⟩ "ann" "Ann" "Lee" 0), []⟩,
   .app ⟨.serve 0 .succeeds, []⟩, .app ⟨.deliver 0 0, []⟩].map .auth

/-- Ann goes to the settings and deletes her account. -/
def annLeaves : List Event :=
  [.tap 0 (.selectTab .profile), .tap 0 .settings, .auth (.deleteUser 0), .auth (.finish 0 true),
   .auth (.closure 0)]

/-- A post that she had opened is still on screen. -/
theorem annLeaves_onlyFeed :
    Runs.Always step OnlyFeed (launch {}) (annLogsIn ++ annLeaves) ∧
      ¬ Runs.Always step OnlyFeed (launch {})
        (annLogsIn ++ [.tap 0 (.selectItem "p")] ++ annLeaves) := by
  obtain ⟨n, hn, -⟩ : ∃ n, Runs.run step (launch {}) (annLogsIn ++ annLeaves) = some n ∧ True :=
    Runs.exists_of_any (by decide +kernel)
  obtain ⟨n', hn', -⟩ : ∃ n, Runs.run step (launch {})
      (annLogsIn ++ [.tap 0 (.selectItem "p")] ++ annLeaves) = some n ∧ True :=
    Runs.exists_of_any (by decide +kernel)
  rw [(onlyFeed_iff hn).2, (onlyFeed_iff hn').2]
  decide +kernel

end Navigation

end ClipPic
