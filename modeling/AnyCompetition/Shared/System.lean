import AnyCompetition.Controllers.MatchScreens
import AnyCompetition.Library.GuardedRun
import Mathlib.Logic.Function.Basic

/-!
# One competition shown on many devices

The system is one stored document, the devices that show it, and the writes of
the whole document that are in flight.  A device opens cells, finishes the match
it has open and receives snapshots of committed versions; a write in flight
commits or fails at any time, in any order.
-/

namespace AnyCompetition.Shared

open Json GuardedRun CompetitionViewController

structure Device where
  /-- The static `CompetitionViewController.competition`. -/
  competition : Option Competition
  matchViewController : Option MatchViewController := none
  /-- The committed version of the last snapshot received. -/
  delivered : Nat := 0
  /-- The number of snapshots received since the competition was opened. -/
  snapshots : Nat := 0

/-- A transaction that has neither committed nor failed. -/
structure Write (ι : Type) where
  device : ι
  /-- The number of snapshots its device had received when it was issued. -/
  snapshots : Nat
  document : Document

structure System (ι : Type) where
  documentID : String
  /-- The committed versions of the document, the first one first. -/
  versions : List Fields
  inFlight : List (Write ι) := []
  /-- The writes whose completion has printed an error. -/
  failed : List (Write ι) := []
  devices : ι → Device

inductive Action (ι : Type) where
  | choose (device : ι) (sectionOfMatch rowOfMatch : Nat)
  | finish (device : ι) (scorePlayer1 scorePlayer2 : Int)
  | commit (write : Nat)
  | fail (write : Nat)
  | deliver (device : ι) (version : Nat)
  deriving DecidableEq

namespace System

variable {ι : Type} [DecidableEq ι]

def setDevice (s : System ι) (device : ι) (next : Device) : System ι :=
  { s with devices := Function.update s.devices device next }

/-- A transaction is started. -/
def issue (s : System ι) (write : Write ι) : System ι :=
  { s with inFlight := s.inFlight ++ [write] }

def step? (s : System ι) : Action ι → Option (System ι)
  | .choose device sectionOfMatch rowOfMatch =>
      -- `didSelectItemAt` ignores the diagonal
      if sectionOfMatch = rowOfMatch then none
      else
        match chooseMatch (s.devices device).competition sectionOfMatch rowOfMatch with
        | .ok (some screen) =>
            some (s.setDevice device
              { s.devices device with matchViewController := some screen })
        | _ => none
  | .finish device scorePlayer1 scorePlayer2 =>
      match (s.devices device).matchViewController with
      | none => none
      | some screen =>
          let finished := screen.finishMatch scorePlayer1 scorePlayer2
          match winning (s.devices device).competition finished.played with
          | .error _ => none
          | .ok (competition, document) =>
              some ((s.setDevice device
                { s.devices device with
                  competition := some competition
                  matchViewController := some finished }).issue
                ⟨device, (s.devices device).snapshots, document⟩)
  | .commit write =>
      match s.inFlight[write]? with
      | none => none
      | some committed =>
          some { s with
            versions :=
              if committed.document.documentID = s.documentID then
                s.versions ++ [committed.document.data]
              else s.versions
            inFlight := s.inFlight.eraseIdx write }
  | .fail write =>
      match s.inFlight[write]? with
      | none => none
      | some lost =>
          some { s with
            inFlight := s.inFlight.eraseIdx write
            failed := s.failed ++ [lost] }
  | .deliver device version =>
      if (s.devices device).delivered ≤ version then
        match s.versions[version]? with
        | none => none
        | some data =>
            some (s.setDevice device
              { s.devices device with
                competition := receiveSnapshot (s.devices device).competition
                  ⟨s.documentID, data⟩
                delivered := version
                snapshots := (s.devices device).snapshots + 1 })
      else none

/-- The competition is stored, and every device has opened it from its list. -/
def create (ι : Type) (documentID : String) (created : Competition) :
    Except Trap (System ι) := do
  let data ← Database.sendCompetitionToDatabase created
  return {
    documentID
    versions := [data]
    devices := fun _ => { competition := Database.decodeCompetition ⟨documentID, data⟩ } }

/-- The current version of the document. -/
def stored (s : System ι) : Option Fields :=
  s.versions.getLast?

end System

/-- The system starts from a competition created with at least two players. -/
structure StartsWith {ι : Type} (created : Competition) (initial : System ι) : Prop where
  two_le : 2 ≤ created.players.length
  created_eq : ∃ title qtyPlayers date players accessUserIdArray,
    Competition.init title qtyPlayers date players accessUserIdArray = .ok created
  initial_eq : ∃ documentID, System.create ι documentID created = .ok initial

/-! ## A small competition to run -/

/-- The competition created with these players. -/
def cup (players : List User) : Competition :=
  match Competition.init "Cup" players.length "2022-11-18 10:00:00 +0000" players
    (players.filterMap User.id) with
  | .ok created => created
  | .error _ =>
      { title := "", qtyPlayers := 0, date := "", accessUsersIdArray := [], players := [] }

/-- The competition of these players, opened on every device. -/
def opened (ι : Type) (players : List User) : System ι :=
  match System.create ι "c1" (cup players) with
  | .ok initial => initial
  | .error _ =>
      { documentID := "", versions := [], devices := fun _ => { competition := none } }

theorem startsWith_two (ι : Type) :
    StartsWith (cup [.anna, .boris]) (opened ι [.anna, .boris]) :=
  ⟨by decide, ⟨"Cup", 2, "2022-11-18 10:00:00 +0000", [.anna, .boris], ["u1", "u2"], rfl⟩,
    "c1", rfl⟩

theorem startsWith_three (ι : Type) :
    StartsWith (cup [.anna, .boris, .vera]) (opened ι [.anna, .boris, .vera]) :=
  ⟨by decide, ⟨"Cup", 3, "2022-11-18 10:00:00 +0000", [.anna, .boris, .vera],
    ["u1", "u2", "u3"], rfl⟩, "c1", rfl⟩

/-! ## The invariant -/

/-- A stored map that reads back as a well-formed version of the competition. -/
def Version (created : Competition) (documentID : String) (data : Fields) : Prop :=
  ∃ version, Database.decodeCompetition ⟨documentID, data⟩ = some version ∧
    version.id = some documentID ∧ created.WellFormed version

/-- A match screen holds a match of an off-diagonal cell. -/
def OpenCell (created : Competition) (screen : MatchViewController) (i j : Nat) : Prop :=
  i ≠ j ∧ i < created.players.length ∧ j < created.players.length ∧
    screen.played.OfCell created.players i j

structure Consistent {ι : Type} (created : Competition) (s : System ι) : Prop where
  versions : ∀ data ∈ s.versions, Version created s.documentID data
  inFlight : ∀ write ∈ s.inFlight, write.document.documentID = s.documentID ∧
    Version created s.documentID write.document.data
  shown : ∀ device, ∃ shown, (s.devices device).competition = some shown ∧
    shown.id = some s.documentID ∧ created.WellFormed shown
  screens : ∀ device screen, (s.devices device).matchViewController = some screen →
    ∃ i j, OpenCell created screen i j

section Steps

variable {ι : Type} [DecidableEq ι] {created : Competition} {s t : System ι}

@[simp]
theorem System.setDevice_same (s : System ι) (device : ι) (next : Device) :
    (s.setDevice device next).devices device = next := by
  simp [setDevice]

theorem System.setDevice_other (s : System ι) {device other : ι} (next : Device)
    (hne : other ≠ device) :
    (s.setDevice device next).devices other = s.devices other := by
  simp [setDevice, hne]

/-- What holds of the changed device and of all devices before holds of all after. -/
theorem System.forall_setDevice {P : ι → Device → Prop} {device : ι} {next : Device}
    (new : P device next) (old : ∀ other, P other (s.devices other)) :
    ∀ other, P other ((s.setDevice device next).devices other) := by
  intro other
  by_cases hother : other = device
  · subst hother
    rw [System.setDevice_same]
    exact new
  · rw [System.setDevice_other s next hother]
    exact old other

/-- A snapshot of a version replaces the copy of the device by that version. -/
theorem Version.receiveSnapshot {documentID : String} {data : Fields}
    (version : Version created documentID data) (competition : Option Competition) :
    receiveSnapshot competition ⟨documentID, data⟩ =
      Database.decodeCompetition ⟨documentID, data⟩ := by
  obtain ⟨stored, hdecode, _⟩ := version
  simp [CompetitionViewController.receiveSnapshot, hdecode]

/-- What a finishing device shows, has open and writes. -/
structure Finishing (created : Competition) (s : System ι) (device : ι) (a b : Int)
    (screen : MatchViewController) (shown : Competition) (table : CompetitionTable)
    (i j : Nat) (data : Fields) : Prop where
  screen_eq : (s.devices device).matchViewController = some screen
  shown_eq : (s.devices device).competition = some shown
  id_eq : shown.id = some s.documentID
  shown_wellFormed : created.WellFormed shown
  table_eq : shown.competitionTable = some table
  wellFormed : table.WellFormed created.players
  openCell : OpenCell created screen i j
  data_eq : Database.decodeCompetition ⟨s.documentID, data⟩ =
    some { shown.withoutDocId with
      id := some s.documentID
      competitionTable := some
        (table.storeMatch i j (screen.played.makeMatch a b)).withoutDocId }

/-- The state after the finish. -/
def System.afterFinish (s : System ι) (device : ι) (a b : Int)
    (screen : MatchViewController) (shown : Competition) (table : CompetitionTable)
    (i j : Nat) (data : Fields) : System ι :=
  (s.setDevice device
    { s.devices device with
      competition := some { shown with
        competitionTable := some (table.storeMatch i j (screen.played.makeMatch a b)) }
      matchViewController := some (screen.finishMatch a b) }).issue
    ⟨device, (s.devices device).snapshots, ⟨s.documentID, data⟩⟩

/-- In a consistent state the finish of an open match does not trap, and this is
all it does. -/
theorem Consistent.finish (consistent : Consistent created s) {device : ι} {a b : Int}
    {screen : MatchViewController}
    (hscreen : (s.devices device).matchViewController = some screen) :
    ∃ shown table i j data,
      Finishing created s device a b screen shown table i j data ∧
      s.step? (.finish device a b) =
        some (s.afterFinish device a b screen shown table i j data) := by
  obtain ⟨shown, hshown, hid, hwellFormed⟩ := consistent.shown device
  obtain ⟨table, htable, htableWellFormed⟩ := hwellFormed.table
  obtain ⟨i, j, openCell⟩ := consistent.screens device screen hscreen
  obtain ⟨hne, hi, hj, ofCell⟩ := openCell
  obtain ⟨data, hwinning, hdata⟩ := winning_eq htable hid htableWellFormed
    (ofCell.makeMatch a b) hi hj
  refine ⟨shown, table, i, j, data,
    ⟨hscreen, hshown, hid, hwellFormed, htable, htableWellFormed, ⟨hne, hi, hj, ofCell⟩,
      hdata⟩, ?_⟩
  simp [System.step?, hscreen, hshown, MatchViewController.finishMatch, hwinning,
    System.afterFinish]

end Steps

end AnyCompetition.Shared
