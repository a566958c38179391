import AnyCompetition.Controllers.SentCompetition
import AnyCompetition.Models.MirroredTable
import AnyCompetition.Navigation.CompetitionList
import AnyCompetition.Navigation.OwnCompetition

/-!
# All devices and all competitions

Every device runs the app over one collection of competitions, which starts empty.  The
list of a device has what the query for its user finds.  A device can be signed in as
another user; the static competition and the listeners stay.
-/

namespace AnyCompetition

open Json Trap GuardedRun CompetitionViewController

/-- `whereField("accessUsersIdArray", arrayContainsAny: [uid])`. -/
def Database.hasAccess (uid : String) (data : Fields) : Bool :=
  holds (data.lookup "accessUsersIdArray") (.string uid)

namespace Navigation

structure Club (ι : Type) where
  /-- The competitions that were sent, under the ids given to their documents. -/
  created : Collection := fun _ => none
  /-- The versions of every document of the collection. -/
  versions : String → List Fields := fun _ => []
  inFlight : List Document := []
  /-- The app of every device, without the collection. -/
  devices : ι → App := fun _ => { versions := fun _ => [] }
  /-- The users a device has been signed in as, the current one first. -/
  users : ι → List String := fun _ => []

namespace Club

inductive Action (ι : Type) where
  | signIn (device : ι) (uid : String)
  | tapAddCompetitionButton (screen : AddCompetitionViewController) (title : Option String)
      (now documentID : String)
  | onDevice (device : ι) (action : Navigation.Action)

variable {ι : Type} [DecidableEq ι]

/-- The app of a device over the collection. -/
def app (s : Club ι) (device : ι) : App :=
  { s.devices device with versions := s.versions, inFlight := s.inFlight }

def setApp (s : Club ι) (device : ι) (app : App) : Club ι :=
  { s with
    versions := app.versions
    inFlight := app.inFlight
    devices := Function.update s.devices device app }

/-- A snapshot of the list has documents that the query finds. -/
def isAnswered (s : Club ι) (device : ι) : Navigation.Action → Bool
  | .receiveList chosen =>
      ((s.app device).documents chosen).all fun document =>
        (s.users device).head?.any fun uid => Database.hasAccess uid document.data
  | _ => true

def step? (s : Club ι) : Action ι → Option (Club ι)
  | .signIn device uid =>
      some { s with
        -- the tab bar is opened anew
        devices := Function.update s.devices device
          { s.devices device with competitions := [], screen := none }
        users := Function.update s.users device (uid :: s.users device) }
  | .tapAddCompetitionButton screen title now documentID =>
      match screen.tapAddCompetitionButton title now with
      | .error _ => none
      | .ok (.dismissed competition sent) =>
          if (s.created documentID).isSome then none
          else some { s with
            created := Function.update s.created documentID (some competition)
            inFlight := s.inFlight ++ [⟨documentID, sent⟩] }
      | .ok _ => some s
  | .onDevice device action =>
      if s.isAnswered device action then
        ((s.app device).step? action).map (s.setApp device)
      else none

/-- All that a step can do. -/
inductive Stepped (s : Club ι) : Club.Action ι → Club ι → Prop where
  | signIn {device : ι} {uid : String} : Stepped s (.signIn device uid) { s with
      devices := Function.update s.devices device
        { s.devices device with competitions := [], screen := none }
      users := Function.update s.users device (uid :: s.users device) }
  | notSent {screen : AddCompetitionViewController} {title : Option String}
      {now documentID : String} :
      Stepped s (.tapAddCompetitionButton screen title now documentID) s
  | sent {screen : AddCompetitionViewController} {title : Option String}
      {now documentID : String} {origin : Competition} {written : Fields}
      (tapped : screen.tapAddCompetitionButton title now = .ok (.dismissed origin written))
      (new : s.created documentID = none) :
      Stepped s (.tapAddCompetitionButton screen title now documentID) { s with
        created := Function.update s.created documentID (some origin)
        inFlight := s.inFlight ++ [⟨documentID, written⟩] }
  | onDevice {device : ι} {action : Navigation.Action} {next : App}
      (answered : s.isAnswered device action = true)
      (hstep : (s.app device).step? action = some next) :
      Stepped s (.onDevice device action) (s.setApp device next)

theorem stepped_of_step {s t : Club ι} {action : Club.Action ι} (hstep : s.step? action = some t) :
    Stepped s action t := by
  cases action with
  | signIn device uid =>
      cases hstep
      exact .signIn
  | tapAddCompetitionButton screen title now documentID =>
      rw [step?] at hstep
      split at hstep
      · cases hstep
      · rename_i origin written tapped
        split at hstep
        · cases hstep
        · rename_i hnew
          cases hstep
          exact .sent tapped (Option.not_isSome_iff_eq_none.mp hnew)
      · cases hstep
        exact .notSent
  | onDevice device action =>
      rw [step?] at hstep
      split at hstep
      · rename_i answered
        obtain ⟨next, hnext, rfl⟩ := Option.map_eq_some_iff.mp hstep
        exact .onDevice answered hnext
      · cases hstep

end Club

/-! ## The query -/

theorem readAll_string?_eq_some {items : List Json} {values : List String}
    (read : readAll string? items = some values) : items = values.map .string := by
  induction items generalizing values with
  | nil =>
      cases read
      rfl
  | cons item rest ih =>
      rw [readAll] at read
      simp only [bind_eq_some_iff] at read
      obtain ⟨value, hvalue, later, hlater, ⟨⟩⟩ := read
      cases item with
      | string text =>
          cases hvalue
          rw [List.map_cons, ih hlater]
      | _ => cases hvalue

/-- The query finds a document when the competition read has the user. -/
theorem hasAccess_iff_of_decodes {document : Document} {competition : Competition}
    (decoded : Database.decodeCompetition document = some competition) (uid : String) :
    Database.hasAccess uid document.data = true ↔ uid ∈ competition.accessUsersIdArray := by
  rw [Database.decodeCompetition, Competition.decode] at decoded
  simp only [bind_eq_some_iff] at decoded
  obtain ⟨_, ⟨⟩, _, _, _, _, _, _, _, _, _, haccess, _, _, _, _, ⟨⟩⟩ := decoded
  rw [required, lookup_setKey_of_ne _ _ (by decide)] at haccess
  obtain ⟨value, hlookup, hread⟩ := Option.bind_eq_some_iff.mp haccess
  obtain ⟨items, hitems, hstrings⟩ := Option.bind_eq_some_iff.mp hread
  cases value with
  | array stored =>
      cases hitems
      rw [Database.hasAccess, hlookup, readAll_string?_eq_some hstrings, holds, List.any_map,
        List.any_eq_true]
      simp [sameValue]
  | _ => cases hitems

end Navigation

end AnyCompetition
