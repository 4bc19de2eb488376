import Hwfa.ScamDetector

/-!
Whether a message is marked as a scam exactly if what it shows is one
(`packages/client/src/client.ts`, `apps/mobile/src/store/conversations.ts`).

The client judges the decrypted body as it is; the store shows the body, the text that
a group body carries, or the label of an attachment.  Only the first is what was judged.
-/

namespace Hwfa.ScamVerdicts

open Hwfa.Json Hwfa.Maps Hwfa.ConversationStore Hwfa.ConversationInbound Hwfa.ScamDetector

/-- What `handleDeliver` hands over of a decrypted body. -/
def delivered (fromUserId body : Text) (receivedAt : Nat) (envelopeId : Option Text) : Inbound where
  fromUserId := fromUserId
  text := body
  receivedAt := receivedAt
  envelopeId := envelopeId
  verdict := some (analyze body)

/-- A thread has one message more, and this is its last. -/
structure Creates (s s' : Store) (key : Key) (message : ChatMessage) : Prop where
  grown : (getMessages s' key).length = (getMessages s key).length + 1
  last : (getMessages s' key).getLast? = some message

/-- The text that a message is shown with. -/
def displayed (text : Value) : Text := (toText text).getD []

/-- A warning for a message is the one that its text deserves. -/
structure Deserved (warning : Option ScamVerdict) (text : Value) : Prop where
  flagged : warning.any (·.flagged) = (analyze (displayed text)).flagged
  category : (analyze (displayed text)).flagged = true →
    warning.bind (·.category) = (analyze (displayed text)).category

instance (warning : Option ScamVerdict) (text : Value) : Decidable (Deserved warning text) :=
  decidable_of_iff (warning.any (·.flagged) = (analyze (displayed text)).flagged ∧
      ((analyze (displayed text)).flagged = true →
        warning.bind (·.category) = (analyze (displayed text)).category))
    ⟨fun both => ⟨both.1, both.2⟩, fun deserved => ⟨deserved.flagged, deserved.category⟩⟩

/-- What a body shows is as it was judged: the label of an attachment is nothing to
flag, and a group's text is judged as the body around it. -/
structure Fair (me : Option Text) (body : Text) : Prop where
  label : IsChat body → (parseMediaBody body).truthy →
    ∀ label ∈ mediaLabel ((parseMediaBody body).get "mime") ((parseMediaBody body).get "name"),
      (analyze label).flagged = false
  group : isGroupBody body → (parseGroupBody body).truthy →
    (Store.roster me ((parseGroupBody body).get "members")).isSome →
      Deserved (some (analyze body)) ((parseGroupBody body).get "text")

variable {s s' : Store} {me : Option Text} {m : Inbound} {key : Key} {message : ChatMessage}

/-! ### What is created -/

/-- What a warning is about, and the warning. -/
def shownWith (message : ChatMessage) : Value × Option ScamVerdict := (message.text, message.verdict)

theorem creates_of_appended {shown : Value × Option ScamVerdict}
    (appended : (getMessages s' key).map shownWith = (getMessages s key).map shownWith ++ [shown]) :
    ∃ message, Creates s s' key message := by
  have grown := congrArg List.length appended
  simp only [List.length_map, List.length_append, List.length_singleton] at grown
  cases last : (getMessages s' key).getLast? with
  | none =>
    rw [List.getLast?_eq_none_iff.mp last] at grown
    cases grown
  | some message => exact ⟨message, grown, last⟩

theorem shownWith_of_creates {shown : Value × Option ScamVerdict}
    (appended : (getMessages s' key).map shownWith = (getMessages s key).map shownWith ++ [shown])
    (creates : Creates s s' key message) : shownWith message = shown := by
  have last := congrArg List.getLast? appended
  rw [List.getLast?_map, creates.last, List.getLast?_concat] at last
  exact Option.some.inj last

theorem not_creates (same : (getMessages s' key).map shownWith = (getMessages s key).map shownWith) :
    ¬ Creates s s' key message := by
  intro creates
  have length := congrArg List.length same
  have grown := creates.grown
  simp only [List.length_map] at length
  omega

/-- The thread that an inbound message is shown in, if it is, and how. -/
def shownOf (s : Store) (me : Option Text) (m : Inbound) :
    Option (Key × Value × Option ScamVerdict) :=
  let media := parseMediaBody m.text
  let group := parseGroupBody m.text
  if IsChat m.text then
    if media.truthy then
      (mediaLabel (media.get "mime") (media.get "name")).map fun label =>
        (.user m.fromUserId, .string label, none)
    else some (.user m.fromUserId, .string m.text, m.verdict)
  else if isGroupBody m.text ∧ group.truthy then
    (Store.roster me (group.get "members")).map fun _ =>
      (s.keyOf (group.get "gid"), group.get "text", m.verdict)
  else none

/-- One more message is shown in the thread, if there is one, and none anywhere else. -/
structure Shows (s s' : Store) (gained : Option (Key × Value × Option ScamVerdict)) : Prop where
  here : ∀ key shown, gained = some (key, shown) →
    (getMessages s' key).map shownWith = (getMessages s key).map shownWith ++ [shown]
  elsewhere : ∀ key, gained.map Prod.fst ≠ some key →
    (getMessages s' key).map shownWith = (getMessages s key).map shownWith

theorem shows_of_appends {shown : Value × Option ScamVerdict} (appends : Appends s s' key message)
    (same : shownWith message = shown) : Shows s s' (some (key, shown)) where
  here := by
    intro key' shown' gained
    cases gained
    rw [appends.messages, List.map_append, List.map_singleton, same]
  elsewhere := by
    intro key' other
    have apart : key' ≠ key := fun here => other (congrArg some here.symm)
    rw [getMessages, getMessages, appends.others key' apart]

/-- A thread that is only looked for shows nothing new. -/
theorem shows_nothing (stored : s'.convs = (s.set key (s.ensure key)).convs) : Shows s s' none where
  here := by
    intro key' shown gained
    cases gained
  elsewhere := by
    intro key' _
    have same := getMessages_set_ensure s key key'
    rw [← same, getMessages, stored]
    rfl

theorem Shows.loadMedia {gained : Option (Key × Value × Option ScamVerdict)}
    (shows : Shows s s' gained) (key : Key) (id : Text) : Shows s (s'.loadMedia key id) gained := by
  have same : ∀ other, (getMessages (s'.loadMedia key id) other).map shownWith =
      (getMessages s' other).map shownWith := by
    intro other
    unfold Store.loadMedia
    rw [getMessages_patch]
    split
    · next here =>
      rw [here]
      exact map_changeFirst _ _ fun _ => rfl
    · rfl
  exact ⟨fun key' shown gains => (same key').trans (shows.here key' shown gains),
    fun key' other => (same key').trans (shows.elsewhere key' other)⟩

theorem receive_shows (s : Store) (me : Option Text) (m : Inbound) :
    Shows s (s.receive me m).store (shownOf s me m) := by
  have taken := receive_taken s me m
  generalize s.receive me m = r at taken
  unfold shownOf
  dsimp only
  cases taken with
  | aside _ convs counter _ apart ungrouped =>
    rw [if_neg apart, if_neg fun group => ungrouped group.1 group.2]
    refine ⟨fun key shown gained => (by cases gained), fun key _ => ?_⟩
    rw [getMessages, getMessages, convs]
  | group grouped payload =>
    rw [if_neg fun chat => chat.2.2.1 grouped, if_pos ⟨grouped, payload⟩]
    cases read : Store.roster me ((parseGroupBody m.text).get "members") with
    | none => exact shows_nothing (receiveGroup_threw read).2.1
    | some members => exact shows_of_appends (receiveGroup_appends read).2 rfl
  | chat chat =>
    rw [if_pos chat]
    split
    · next media =>
      cases labelled : mediaLabel ((parseMediaBody m.text).get "mime")
          ((parseMediaBody m.text).get "name") with
      | none => exact shows_nothing (receiveChat_threw media labelled).2.1
      | some label =>
        obtain ⟨-, t, appends, became⟩ := receiveChat_media media labelled
        have shows := shows_of_appends appends rfl
        rcases became with same | ⟨-, same⟩
        · rwa [same]
        · rw [same]
          exact shows.loadMedia ..
    · next plain => exact shows_of_appends (receiveChat_plain plain).2.2 rfl

/-- What holds of every message created holds of what is shown. -/
theorem created_iff_shown {gained : Option (Key × Value × Option ScamVerdict)}
    (shows : Shows s s' gained) : (∀ key message, Creates s s' key message →
        Deserved message.verdict message.text) ↔
      ∀ key shown, gained = some (key, shown) → Deserved shown.2 shown.1 := by
  constructor
  · intro all key shown gains
    obtain ⟨message, creates⟩ := creates_of_appended (shows.here key shown gains)
    have same := shownWith_of_creates (shows.here key shown gains) creates
    have deserved := all key message creates
    rwa [← same]
  · intro all key message creates
    by_cases here : gained.map Prod.fst = some key
    · obtain ⟨⟨key', shown⟩, gains, rfl⟩ := Option.map_eq_some_iff.mp here
      have same := shownWith_of_creates (shows.here _ shown gains) creates
      have deserved := all _ shown gains
      rwa [← same] at deserved
    · exact absurd creates (not_creates (shows.elsewhere key here))

/-! ### The warning -/

theorem deserved_plain (body : Text) : Deserved (some (analyze body)) (.string body) :=
  ⟨rfl, fun _ => rfl⟩

/-- No warning is deserved by what is nothing to flag. -/
theorem deserved_none_iff (label : Text) :
    Deserved none (.string label) ↔ (analyze label).flagged = false := by
  constructor
  · exact fun deserved => deserved.flagged.symm
  · intro unflagged
    refine ⟨unflagged.symm, fun flagged => ?_⟩
    cases unflagged.symm.trans flagged

/-- **The warning matches what is shown.** Whatever the store and whoever the sender: every
message that an inbound body creates is flagged exactly if the detector flags the text that
is shown, and for the same category, exactly if the body is fair: the label of an
attachment is nothing to flag, and a group body as a whole is judged as its text is. -/
theorem warning_matches_iff_fair (s : Store) (me : Option Text) (fromUserId body : Text)
    (receivedAt : Nat) (envelopeId : Option Text) :
    (∀ key message,
        Creates s (s.receive me (delivered fromUserId body receivedAt envelopeId)).store key message →
          Deserved message.verdict message.text) ↔ Fair me body := by
  rw [created_iff_shown (receive_shows ..)]
  unfold shownOf delivered
  dsimp only
  constructor
  · intro all
    constructor
    · intro chat media label labelled
      refine (deserved_none_iff label).mp (all (.user fromUserId) (.string label, none) ?_)
      rw [if_pos chat, if_pos media, labelled]
      rfl
    · intro grouped payload readable
      obtain ⟨members, read⟩ := Option.isSome_iff_exists.mp readable
      refine all (s.keyOf ((parseGroupBody body).get "gid"))
        ((parseGroupBody body).get "text", some (analyze body)) ?_
      rw [if_neg fun chat => chat.2.2.1 grouped, if_pos ⟨grouped, payload⟩, read]
      rfl
  · intro fair key shown gained
    split at gained
    · next chat =>
      split at gained
      · next media =>
        obtain ⟨label, labelled, same⟩ := Option.map_eq_some_iff.mp gained
        cases same
        exact (deserved_none_iff label).mpr (fair.label chat media label labelled)
      · cases gained
        exact deserved_plain body
    · split at gained
      · next group =>
        obtain ⟨members, read, same⟩ := Option.map_eq_some_iff.mp gained
        cases same
        exact fair.group group.1 group.2 (by rw [read]; rfl)
      · cases gained

/-! ### Bodies that are judged wrongly -/

theorem undeserved (shown : ((shownOf s me m).any fun gained =>
    ! decide (Deserved gained.2.2 gained.2.1)) = true) :
    ¬ ∀ key message, Creates s (s.receive me m).store key message →
      Deserved message.verdict message.text := by
  obtain ⟨⟨key, gained⟩, gains, wrong⟩ := (Option.any_eq_true _ _).mp shown
  intro all
  have deserved := (created_iff_shown (receive_shows s me m)).mp all key gained gains
  simp [deserved] at wrong

def alice : Option Text := some (utf16 "alice")

/-- A group's text, whose line end is escaped in the body. -/
def escaped : Text :=
  utf16 "hwfa-group:\x7b\"gid\":\"g\",\"members\":[],\"text\":\"hi\\notp? send it\"\x7d"

/-- A group whose name is a scam. -/
def misnamed : Text :=
  utf16 "hwfa-group:\x7b\"gid\":\"g\",\"name\":\"otp? send it\",\"members\":[],\"text\":\"hi\"\x7d"

/-- A file whose name is a scam. -/
def attached : Text :=
  utf16 "\x01hwfa-media:\x7b\"mime\":\"text/plain\",\"name\":\"otp? send it\"\x7d"

/-- The line end hides the word, the group's name is held against the text, and the file's
name is not looked at. -/
theorem warnings_do_not_match_what_is_shown :
    (analyze (utf16 "hi\notp? send it")).flagged = true ∧ (analyze (utf16 "hi")).flagged = false ∧
    (analyze (utf16 "📎 otp? send it")).flagged = true ∧
    ∀ body ∈ [escaped, misnamed, attached], ¬ ∀ key message,
      Creates {} (({} : Store).receive alice (delivered (utf16 "mallory") body 1 none)).store
        key message → Deserved message.verdict message.text := by
  refine ⟨by decide +kernel, by decide +kernel, by decide +kernel, fun body inside => undeserved ?_⟩
  simp only [List.mem_cons, List.not_mem_nil, or_false] at inside
  rcases inside with rfl | rfl | rfl <;> decide +kernel

end Hwfa.ScamVerdicts
