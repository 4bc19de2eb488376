import Hwfa.DiscoveryHistory

/-!
One-time codes over whole runs.

A code that is pending was issued to its user since the last restart, nobody has
succeeded with it, and its counter is the number of wrong guesses since (`Live`).
As user ids are not drawn twice, a code that is gone never comes back.
-/

namespace Hwfa.DiscoveryCodes

open Hwfa.Machines Hwfa.Maps Hwfa.DiscoveryStore Hwfa.DiscoveryService Hwfa.DiscoveryCredentials
  Hwfa.DiscoveryHistory

/-- `verify` was called for the user, with another code. -/
def misses (userID code : String) : Event → Bool
  | .guessed user guess _ _ => user = userID && guess ≠ code
  | _ => false

/-- The user's code was compared with a guess, which was wrong. -/
def failsFor (userID : String) : Event → Bool
  | .guessed user _ compared _ => user = userID && compared = some false
  | _ => false

def succeedsFor (userID : String) : Event → Bool
  | .guessed user _ _ succeeded => user = userID && succeeded
  | _ => false

def issuedTo (userID : String) : Event → Bool
  | .issued user _ _ => user = userID
  | _ => false

def restarts : Event → Bool
  | .restarted => true
  | _ => false

/-- The event says something about the codes of the user. -/
def concerns (userID : String) : Event → Bool
  | .issued user _ _ => user = userID
  | .guessed user _ _ _ => user = userID
  | .restarted => true
  | _ => false

/-- The code was issued to the user, and this is what has happened since. -/
structure Issued (events since : List Event) (userID code : String) (time : Int) : Prop where
  found : ∃ before, events = since ++ .issued userID code time :: before
  running : since.countP restarts = 0

/-- A pending code can still be used, and its counter counts the wrong guesses. -/
structure Live (events : List Event) (userID : String) (p : PendingOTP) : Prop where
  issued : ∃ since time, Issued events since userID p.code time ∧ p.expiresAt = time + otpTTL ∧
    since.countP (misses userID p.code) = p.attempts
  attempts : p.attempts < maxOTPAttempts
  failures : events.countP (failsFor userID) = p.attempts
  unused : events.countP (succeedsFor userID) = 0

/-- What holds of the codes in every run. -/
structure Guarded (s : Chronicle) : Prop where
  pending : ∀ u p, s.service.store.pending.lookup u = some p → Live s.events u p
  known : ∀ u p, s.service.store.pending.lookup u = some p → u ∈ s.drawn
  failures : ∀ u, s.events.countP (failsFor u) ≤ maxOTPAttempts
  successes : ∀ u, s.events.countP (succeedsFor u) ≤ 1
  once : ∀ u, s.events.countP (issuedTo u) ≤ 1
  undrawn : ∀ u, u ∉ s.drawn → s.events.countP (failsFor u) = 0 ∧
    s.events.countP (succeedsFor u) = 0 ∧ s.events.countP (issuedTo u) = 0

variable {s s' : Chronicle} {events : List Event} {e : Event} {u : String} {p : PendingOTP}

/-- An event about other users changes no count. -/
theorem counts_of_not_concerns (other : concerns u e = false) :
    failsFor u e = false ∧ succeedsFor u e = false ∧ issuedTo u e = false ∧ restarts e = false ∧
      ∀ code, misses u code e = false := by
  cases e <;> simp_all [concerns, failsFor, succeedsFor, issuedTo, restarts, misses]

/-- An event that leaves the code as it is. -/
theorem Live.tell (live : Live events u p) (running : restarts e = false)
    (fails : failsFor u e = false) (succeeds : succeedsFor u e = false)
    (miss : misses u p.code e = false) : Live (e :: events) u p := by
  obtain ⟨since, time, ⟨⟨before, rfl⟩, kept⟩, expires, counted⟩ := live.issued
  refine ⟨⟨e :: since, time, ⟨⟨before, rfl⟩, ?_⟩, expires, ?_⟩, live.attempts, ?_, ?_⟩
  · simp [running, kept]
  · simp [miss, counted]
  · rw [← live.failures, List.countP_cons]
    simp [fails]
  · rw [← live.unused, List.countP_cons]
    simp [succeeds]

theorem Live.later {more : List Event} (live : Live events u p)
    (others : ∀ e ∈ more, concerns u e = false) : Live (more ++ events) u p := by
  induction more with
  | nil => exact live
  | cons e rest ih =>
    obtain ⟨fails, succeeds, -, running, miss⟩ :=
      counts_of_not_concerns (others e List.mem_cons_self)
    have before := ih fun e member => others e (List.mem_cons_of_mem _ member)
    exact before.tell running fails succeeds (miss _)

/-- A wrong guess that the code survives. -/
theorem Live.guess (live : Live events u p) {code : String} (wrong : p.code ≠ code)
    (room : p.attempts + 1 < maxOTPAttempts) :
    Live (.guessed u code (some false) false :: events) u { p with attempts := p.attempts + 1 } := by
  obtain ⟨since, time, ⟨⟨before, rfl⟩, kept⟩, expires, counted⟩ := live.issued
  refine ⟨⟨.guessed u code (some false) false :: since, time, ⟨⟨before, rfl⟩, ?_⟩, expires, ?_⟩,
    room, ?_, ?_⟩
  · simp [restarts, kept]
  · simp [misses, counted, Ne.symm wrong]
  · rw [List.countP_cons, live.failures]
    simp [failsFor]
  · rw [List.countP_cons, live.unused]
    simp [succeedsFor]

/-- Codes may go, and the history may grow by events about other things. -/
theorem Guarded.frame (guarded : Guarded s) (more : List Event)
    (events : s'.events = more ++ s.events) (others : ∀ u, ∀ e ∈ more, concerns u e = false)
    (pending : ∀ u p, s'.service.store.pending.lookup u = some p →
      s.service.store.pending.lookup u = some p)
    (drawn : ∀ u ∈ s.drawn, u ∈ s'.drawn) : Guarded s' := by
  have quiet (u : String) : more.countP (failsFor u) = 0 ∧ more.countP (succeedsFor u) = 0 ∧
      more.countP (issuedTo u) = 0 := by
    simp only [List.countP_eq_zero, Bool.not_eq_true]
    refine ⟨?_, ?_, ?_⟩
    · exact fun e member => (counts_of_not_concerns (others u e member)).1
    · exact fun e member => (counts_of_not_concerns (others u e member)).2.1
    · exact fun e member => (counts_of_not_concerns (others u e member)).2.2.1
  refine ⟨?_, ?_, ?_, ?_, ?_, ?_⟩
  · intro u p found
    rw [events]
    exact (guarded.pending u p (pending u p found)).later (others u)
  · exact fun u p found => drawn u (guarded.known u p (pending u p found))
  · intro u
    rw [events, List.countP_append, (quiet u).1, Nat.zero_add]
    exact guarded.failures u
  · intro u
    rw [events, List.countP_append, (quiet u).2.1, Nat.zero_add]
    exact guarded.successes u
  · intro u
    rw [events, List.countP_append, (quiet u).2.2, Nat.zero_add]
    exact guarded.once u
  · intro u absent
    rw [events, List.countP_append, List.countP_append, List.countP_append, (quiet u).1,
      (quiet u).2.1, (quiet u).2.2, Nat.zero_add, Nat.zero_add, Nat.zero_add]
    exact guarded.undrawn u fun before => absent (drawn u before)

/-- A code is issued to a new user. -/
theorem Guarded.register (guarded : Guarded s) {otp : String} {now : Int} (new : u ∉ s.drawn)
    (pending : s'.service.store.pending =
      s.service.store.pending.insert u ⟨otp, now + otpTTL, 0⟩)
    (events : s'.events = .issued u otp now :: s.events) (drawn : s'.drawn = u :: s.drawn) :
    Guarded s' := by
  obtain ⟨fails, succeeds, unissued⟩ := guarded.undrawn u new
  refine ⟨?_, ?_, ?_, ?_, ?_, ?_⟩
  · intro v q found
    rw [pending, FinMap.lookup_insert_apply] at found
    rw [events]
    split at found
    · next own =>
      subst own
      cases found
      refine ⟨⟨[], now, ⟨⟨s.events, rfl⟩, rfl⟩, rfl, rfl⟩, Nat.zero_lt_succ 4, ?_, ?_⟩
      · simp [failsFor, fails]
      · simp [succeedsFor, succeeds]
    · next other =>
      refine (guarded.pending v q found).tell rfl rfl rfl rfl
  · intro v q found
    rw [pending, FinMap.lookup_insert_apply] at found
    rw [drawn]
    split at found
    · next own => exact own ▸ List.mem_cons_self
    · exact List.mem_cons_of_mem _ (guarded.known v q found)
  · intro v
    rw [events]
    simpa [failsFor] using guarded.failures v
  · intro v
    rw [events]
    simpa [succeedsFor] using guarded.successes v
  · intro v
    rw [events, List.countP_cons]
    by_cases own : u = v
    · subst own
      simp [issuedTo, unissued]
    · simpa [issuedTo, own] using guarded.once v
  · intro v absent
    rw [drawn, List.mem_cons, not_or] at absent
    obtain ⟨fails, succeeds, unissued⟩ := guarded.undrawn v absent.2
    rw [events]
    refine ⟨?_, ?_, ?_⟩
    · simpa [failsFor] using fails
    · simpa [succeedsFor] using succeeds
    · simpa [issuedTo, Ne.symm absent.1] using unissued

/-- A guess, with what it does to the code. -/
theorem Guarded.guess (guarded : Guarded s) {code : String} {outcome : Option Bool}
    {succeeded : Bool} (events : s'.events = .guessed u code outcome succeeded :: s.events)
    (drawn : s'.drawn = s.drawn)
    (others : ∀ v p, v ≠ u → s'.service.store.pending.lookup v = some p →
      s.service.store.pending.lookup v = some p)
    (own : ∀ p, s'.service.store.pending.lookup u = some p → Live s'.events u p)
    (known : outcome = some false ∨ succeeded = true ∨
      s'.service.store.pending.lookup u ≠ none → s.service.store.pending.lookup u ≠ none) :
    Guarded s' := by
  -- a comparison is made, and a call succeeds, only where a code is pending
  have pended (reason : outcome = some false ∨ succeeded = true) :
      u ∈ s.drawn ∧ ∃ p, Live s.events u p := by
    obtain ⟨p, found⟩ := Option.ne_none_iff_exists'.mp
      (known (reason.imp id .inl))
    exact ⟨guarded.known u p found, p, guarded.pending u p found⟩
  refine ⟨?_, ?_, ?_, ?_, ?_, ?_⟩
  · intro v p found
    by_cases same : v = u
    · subst same
      exact own p found
    · rw [events]
      refine (guarded.pending v p (others v p same found)).tell rfl ?_ ?_ ?_
      · simp [failsFor, Ne.symm same]
      · simp [succeedsFor, Ne.symm same]
      · simp [misses, Ne.symm same]
  · intro v p found
    rw [drawn]
    by_cases same : v = u
    · subst same
      obtain ⟨q, before⟩ := Option.ne_none_iff_exists'.mp
        (known (.inr (.inr (by rw [found]; simp))))
      exact guarded.known v q before
    · exact guarded.known v p (others v p same found)
  · intro v
    rw [events, List.countP_cons]
    split
    · next fails =>
      simp only [failsFor, Bool.and_eq_true, decide_eq_true_eq] at fails
      obtain ⟨rfl, wrong⟩ := fails
      obtain ⟨-, p, live⟩ := pended (.inl wrong)
      rw [live.failures]
      exact live.attempts
    · exact guarded.failures v
  · intro v
    rw [events, List.countP_cons]
    split
    · next succeeds =>
      simp only [succeedsFor, Bool.and_eq_true, decide_eq_true_eq] at succeeds
      obtain ⟨rfl, right⟩ := succeeds
      obtain ⟨-, p, live⟩ := pended (.inr right)
      rw [live.unused]
    · exact guarded.successes v
  · intro v
    rw [events]
    simpa [issuedTo] using guarded.once v
  · intro v absent
    rw [drawn] at absent
    obtain ⟨fails, succeeds, unissued⟩ := guarded.undrawn v absent
    rw [events, List.countP_cons, List.countP_cons, List.countP_cons, fails, succeeds, unissued]
    refine ⟨?_, ?_, rfl⟩
    · rw [if_neg]
      intro failed
      simp only [failsFor, Bool.and_eq_true, decide_eq_true_eq] at failed
      obtain ⟨rfl, wrong⟩ := failed
      exact absent (pended (.inl wrong)).1
    · rw [if_neg]
      intro succeeded
      simp only [succeedsFor, Bool.and_eq_true, decide_eq_true_eq] at succeeded
      obtain ⟨rfl, right⟩ := succeeded
      exact absent (pended (.inr right)).1

theorem compared_of_found {store : Store} {code : String} {now : Int}
    (found : store.pending.lookup u = some p) (inTime : ¬ p.expiresAt < now) :
    compared store u code now = some (decide (p.code = code)) := by
  unfold compared
  rw [found]
  exact if_neg inTime

/-- A call of `verify` keeps codes guarded. -/
theorem Guarded.verify (guarded : Guarded s) {code : String} {now : Int} {wrote : Bool} :
    Guarded (s.request (.verify u code now) wrote) := by
  have handled := handle_handled (r := .verify u code now) s.service wrote rfl
  have events : (s.request (.verify u code now) wrote).events =
      .guessed u code (compared s.service.store u code now)
        (s.service.store.verify u code now).result.isSome :: s.events := rfl
  generalize after : (s.request (.verify u code now) wrote) = s' at events ⊢
  have drawn : s'.drawn = s.drawn := by rw [← after]; rfl
  have store : s'.service.store = (s.service.handle wrote (.verify u code now)).store := by
    rw [← after]; rfl
  rw [← store] at handled
  cases handled with
  | idle other => exact absurd rfl (other u code now)
  | refused nothing result accounts pending linkTokens =>
    rw [nothing, result] at events
    refine guarded.guess events drawn (fun v p _ found => (pending v p found).1) ?_ ?_
    · exact fun p found => absurd rfl (pending u p found).2
    · rintro (wrong | right | found)
      · cases wrong
      · cases right
      · obtain ⟨p, found⟩ := Option.ne_none_iff_exists'.mp found
        exact absurd rfl (pending u p found).2
  | wrong found inTime wrong result accounts pending linkTokens =>
    rw [compared_of_found found inTime, result, decide_eq_false wrong] at events
    have live := guarded.pending u _ found
    rcases pending with ⟨gone, -⟩ | ⟨counted, room⟩
    · refine guarded.guess events drawn ?_ ?_ (fun _ => by rw [found]; simp)
      · intro v q other before
        rwa [gone, AList.lookup_erase_ne other] at before
      · intro q before
        rw [gone, AList.lookup_erase] at before
        cases before
    · refine guarded.guess events drawn ?_ ?_ (fun _ => by rw [found]; simp)
      · intro v q other before
        rwa [counted, AList.lookup_insert_ne other] at before
      · intro q before
        rw [counted, AList.lookup_insert] at before
        cases before
        rw [events]
        exact live.guess wrong room
  | missing found inTime right absent result accounts pending linkTokens =>
    rw [compared_of_found found inTime, result, decide_eq_true right] at events
    refine guarded.guess events drawn ?_ ?_ (fun _ => by rw [found]; simp)
    · intro v q _ before
      rwa [pending] at before
    · intro q before
      rw [pending, found] at before
      cases before
      rw [events]
      refine (guarded.pending u _ found).tell rfl ?_ ?_ ?_
      · simp [failsFor]
      · simp [succeedsFor]
      · simp [misses, right]
  | verify found inTime right record result accounts pending linkTokens =>
    rw [compared_of_found found inTime, result, decide_eq_true right] at events
    refine guarded.guess events drawn ?_ ?_ (fun _ => by rw [found]; simp)
    · intro v q other before
      rwa [pending, AList.lookup_erase_ne other] at before
    · intro q before
      rw [pending, AList.lookup_erase] at before
      cases before
  | pool _ nothing other => exact absurd rfl (other u code now)

/-- A request that adds to the history at most one event, about other things. -/
theorem Guarded.quiet (guarded : Guarded s) {r : Request} {wrote : Bool}
    (drawn : ∀ u ∈ s.drawn, u ∈ (s.request r wrote).drawn)
    (tells : told s.service.store r = [] ∨
      ∃ e, told s.service.store r = [e] ∧ ∀ u, concerns u e = false)
    (pending : ∀ u p, (s.request r wrote).service.store.pending.lookup u = some p →
      s.service.store.pending.lookup u = some p) : Guarded (s.request r wrote) := by
  refine guarded.frame _ rfl ?_ pending drawn
  rcases tells with nothing | ⟨e, one, other⟩
  · rw [nothing]
    exact fun _ _ member => absurd member List.not_mem_nil
  · rw [one]
    intro u e' member
    rw [List.mem_singleton.mp member]
    exact other u

/-- What other requests add to the history concerns nobody's codes. -/
theorem Guarded.request (guarded : Guarded s) {r : Request} {wrote : Bool}
    (fits : s.fits r = true) : Guarded (s.request r wrote) := by
  obtain ⟨unminted, new⟩ := Bool.and_eq_true_iff.mp fits
  have handled := handle_handled (r := r) s.service wrote (by simpa using unminted)
  have drawn : ∀ u ∈ s.drawn, u ∈ (s.request r wrote).drawn :=
    fun _ member => List.mem_append_right _ member
  generalize after : (s.service.handle wrote r).store = store at handled
  have pended : (s.request r wrote).service.store.pending = store.pending := by rw [← after]; rfl
  cases handled with
  | idle _ nothing accounts pending =>
    exact guarded.quiet drawn (.inl nothing) fun u p found => by rwa [pended, pending] at found
  | register result accounts pending =>
    refine guarded.register (by simpa [draws] using new) (pended.trans pending) ?_ rfl
    simp only [Chronicle.request, told, result]
    rfl
  | refused | wrong | missing | verify => exact guarded.verify
  | expired nothing accounts pending =>
    exact guarded.quiet drawn (.inl nothing) fun u p found => by rwa [pended, pending] at found
  | linkDevice _ _ _ result accounts pending =>
    exact guarded.quiet drawn (.inr ⟨_, result, fun _ => rfl⟩) fun u p found => by
      rwa [pended, pending] at found
  | deleteAccount found accounts pending =>
    exact guarded.quiet drawn (.inl rfl) fun u p found => (pending u p (pended ▸ found)).1
  | removeDevice found secondary accounts pending =>
    refine guarded.quiet drawn (.inl rfl) fun u p found => ?_
    rw [pended, pending, FinMap.lookup_erase_apply] at found
    split at found
    · cases found
    · exact found
  | pool _ nothing _ found accounts pending =>
    exact guarded.quiet drawn (.inl nothing) fun u p found => by rwa [pended, pending] at found

theorem step_guarded {a : DiscoveryHistory.Action} (guarded : Guarded s) (moved : s.step a = some s') :
    Guarded s' := by
  cases a with
  | request r wrote =>
    simp only [Chronicle.step, Option.ite_none_right_eq_some, Option.some.injEq] at moved
    obtain ⟨fits, rfl⟩ := moved
    exact guarded.request fits
  | linkToken token now =>
    cases moved
    unfold Chronicle.linkToken
    split
    · exact ⟨guarded.pending, guarded.known, guarded.failures, guarded.successes, guarded.once,
        guarded.undrawn⟩
    · exact guarded
  | accountIDFor call =>
    simp only [Chronicle.step] at moved
    split at moved
    · next userID called =>
      cases moved
      unfold Chronicle.accountIDFor
      split
      · next accountID answered =>
        refine guarded.frame [.resolved call userID accountID s.service.store.accounts] rfl ?_
          (fun _ _ found => found) fun _ drawn => drawn
        intro u e member
        rw [List.mem_singleton.mp member]
        rfl
      · exact ⟨guarded.pending, guarded.known, guarded.failures, guarded.successes, guarded.once,
          guarded.undrawn⟩
    · cases moved
  | createLinkToken call token now =>
    simp only [Chronicle.step] at moved
    split at moved
    · next userID accountID called =>
      split at moved
      · cases moved
      · cases moved
        refine guarded.frame [.minted call token accountID now] rfl ?_
          (fun _ _ found => found) fun _ drawn => List.mem_cons_of_mem _ drawn
        intro u e member
        rw [List.mem_singleton.mp member]
        rfl
    · cases moved
  | restart freshSalt readable =>
    cases moved
    obtain ⟨pending, -⟩ := boot_empty s.service.store.path freshSalt
      (if readable then s.service.disk else none)
    refine ⟨?_, ?_, ?_, ?_, ?_, ?_⟩
    · intro u p found
      simp only [Chronicle.restart, pending] at found
      cases found
    · intro u p found
      simp only [Chronicle.restart, pending] at found
      cases found
    · simpa [Chronicle.restart, failsFor] using guarded.failures
    · simpa [Chronicle.restart, succeedsFor] using guarded.successes
    · simpa [Chronicle.restart, issuedTo] using guarded.once
    · simpa [Chronicle.restart, failsFor, succeedsFor, issuedTo] using guarded.undrawn

theorem reached_guarded (reached : chronicle.Reachable s) : Guarded s := by
  refine reached.invariant Guarded ?_ fun _ _ _ guarded _ moved => step_guarded guarded moved
  rintro s ⟨path, salt, rfl⟩
  refine ⟨?_, ?_, fun _ => Nat.zero_le _, fun _ => Nat.zero_le _, fun _ => Nat.zero_le _, ?_⟩
  · intro u p found
    cases found
  · intro u p found
    cases found
  · exact fun u _ => ⟨rfl, rfl, rfl⟩

/-- A call that succeeds finds its code pending. -/
theorem pending_of_verified {store : Store} {code : String} {now : Int}
    (succeeded : (store.verify u code now).result ≠ none) :
    ∃ p, store.pending.lookup u = some p ∧ ¬ p.expiresAt < now ∧ p.code = code := by
  have handled := handled_verify store u code now
  generalize (store.verify u code now).store = after at handled
  cases handled with
  | idle other => exact absurd rfl (other u code now)
  | refused _ result => exact absurd result succeeded
  | wrong _ _ _ result => exact absurd result succeeded
  | missing _ _ _ _ result => exact absurd result succeeded
  | verify found inTime right => exact ⟨_, found, inTime, right⟩
  | pool _ _ other => exact absurd rfl (other u code now)

/-- **Codes can be neither guessed by force nor replayed.** In every run, whatever
the guesses, the clock and the restarts, `verify` succeeds only with a code that
was issued to the user no more than `otpTTL` earlier, since when there was no
restart and fewer than `maxOTPAttempts` wrong guesses, and with which nobody has
succeeded.  A user is issued one code at most, it is compared with at most
`maxOTPAttempts` wrong guesses and succeeds once at most, and after either of
these no guess succeeds. -/
theorem codes_are_single_use (reached : chronicle.Reachable s) (u : String) :
    (∀ code now, (s.service.store.verify u code now).result ≠ none →
      ∃ since time, Issued s.events since u code time ∧ now ≤ time + otpTTL ∧
        since.countP (misses u code) < maxOTPAttempts ∧ s.events.countP (succeedsFor u) = 0) ∧
    s.events.countP (issuedTo u) ≤ 1 ∧
    s.events.countP (failsFor u) ≤ maxOTPAttempts ∧
    s.events.countP (succeedsFor u) ≤ 1 ∧
    (s.events.countP (failsFor u) = maxOTPAttempts ∨ s.events.countP (succeedsFor u) = 1 →
      ∀ code now, (s.service.store.verify u code now).result = none) := by
  have guarded := reached_guarded reached
  have pends (code : String) (now : Int)
      (succeeded : (s.service.store.verify u code now).result ≠ none) :
      ∃ p, ¬ p.expiresAt < now ∧ p.code = code ∧ Live s.events u p := by
    obtain ⟨p, found, inTime, right⟩ := pending_of_verified succeeded
    exact ⟨p, inTime, right, guarded.pending u p found⟩
  refine ⟨?_, guarded.once u, guarded.failures u, guarded.successes u, ?_⟩
  · intro code now succeeded
    obtain ⟨p, inTime, rfl, live⟩ := pends code now succeeded
    obtain ⟨since, time, issued, expires, counted⟩ := live.issued
    refine ⟨since, time, issued, ?_, ?_, live.unused⟩
    · rw [← expires]
      exact Int.not_lt.mp inTime
    · rw [counted]
      exact live.attempts
  · intro spent code now
    by_contra succeeded
    obtain ⟨p, -, -, live⟩ := pends code now succeeded
    have room := live.attempts
    rcases spent with burnt | used
    · rw [live.failures] at burnt
      omega
    · rw [live.unused] at used
      cases used

/-- Alice's code survives four wrong guesses, and no use of it. -/
def fourGuesses : List DiscoveryHistory.Action :=
  [ .request (.register (deviceKeys "+15550100") "alice" "123456" 0) true,
    .request (.verify "alice" "000000" 1) true, .request (.verify "alice" "000001" 2) true,
    .request (.verify "alice" "000002" 3) true, .request (.verify "alice" "000003" 4) true ]

theorem fifth_guess_may_be_right : ∃ s, chronicle.Reachable s ∧
    (s.service.store.verify "alice" "123456" 5).result ≠ none ∧
    ∃ since time, Issued s.events since "alice" "123456" time ∧ 5 ≤ time + otpTTL ∧
      since.countP (misses "alice" "123456") < maxOTPAttempts ∧
      s.events.countP (succeedsFor "alice") = 0 := by
  have observed : (chronicle.run { service := started "" [1, 2] } fourGuesses).map (fun s =>
      (s.service.store.verify "alice" "123456" 5).result.isSome) = some true := by decide +kernel
  obtain ⟨s, ran, seen⟩ := Option.map_eq_some_iff.mp observed
  have reached := Machine.reachable_of_run (m := chronicle) ⟨"", [1, 2], rfl⟩ fourGuesses ran
  have succeeded : (s.service.store.verify "alice" "123456" 5).result ≠ none := by
    intro failed
    rw [failed] at seen
    cases seen
  exact ⟨s, reached, succeeded, (codes_are_single_use reached "alice").1 "123456" 5 succeeded⟩

end Hwfa.DiscoveryCodes
