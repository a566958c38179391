import AnyCompetition.Shared.System
import Mathlib.Data.List.Sort

/-!
# One device and its competitions

The list of competitions, the screen of one of them, and the match screen above
it.  The competition shown is one static variable: opening a competition sets it,
and so does every listener registered since the app was started.
-/

namespace AnyCompetition

open Json Trap

inductive CellColor where
  | white
  | anyDarckColor
  | anyGreenColor
  | anyPurpleColor
  deriving DecidableEq, Repr

structure CompetitionTableCollectionViewCell where
  text : Option String := none
  backgroundColor : CellColor
  deriving DecidableEq, Repr

namespace CompetitionTableView

/-- A cell of the table, drawn from the static competition. -/
def cellForItemAt (competition : Option Competition) (sectionOfMatch rowOfMatch : Int) :
    Except Trap CompetitionTableCollectionViewCell := do
  let shown ← unwrap competition
  let table ← unwrap shown.competitionTable
  let row ← element table.competitionTable sectionOfMatch
  let played ← element row.matchesOfPlayer rowOfMatch
  return if !played.isDone then
      if rowOfMatch = sectionOfMatch then { backgroundColor := .anyDarckColor }
      else { backgroundColor := .white }
    else if played.isWinned then { text := "1", backgroundColor := .anyGreenColor }
    else { text := "0", backgroundColor := .anyPurpleColor }

/-- A cell of the column of points, drawn from the static competition. -/
def scoreForItemAt (competition : Option Competition) (sectionOfPlayer : Int) :
    Except Trap CompetitionTableCollectionViewCell :=
  match competition with
  | none => return { backgroundColor := .white }
  | some shown => do
      let table ← unwrap shown.competitionTable
      let score ← table.calculatePointsOfPlayer shown.competitionTable sectionOfPlayer
      return { text := toString score, backgroundColor := .white }

end CompetitionTableView

namespace Navigation

open CompetitionViewController

/-- The screen of a competition. -/
structure CompetitionScreen where
  /-- The id of the competition that was pressed. -/
  competitionId : Option String
  /-- The number of rows and columns, read once when the screen is built. -/
  qty : Int
  matchViewController : Option MatchViewController := none

/-- A finished match: the competition whose cell was tapped, the one whose table
has stored the match, and the document written. -/
structure FinishedMatch where
  tapped : Option String
  storedIn : Option String
  document : Document

structure App where
  /-- The static `CompetitionViewController.competition`. -/
  competition : Option Competition := none
  competitions : List Competition := []
  screen : Option CompetitionScreen := none
  /-- The documents listened to; no listener is ever removed. -/
  listeners : List String := []
  /-- The versions of every document of the collection. -/
  versions : String → List Fields
  inFlight : List Document := []
  finished : List FinishedMatch := []

inductive Action where
  | receiveList (documents : List (String × Nat))
  | pressCompetition (index : Nat)
  | back
  | choose (sectionOfMatch rowOfMatch : Nat)
  | finish (scorePlayer1 scorePlayer2 : Int)
  | dismiss
  | deliver (documentID : String) (version : Nat)
  | commit (write : Nat)
  | fail (write : Nat)
  deriving DecidableEq

namespace App

/-- The competitions of a snapshot of the collection, the latest date first. -/
def sortedByDate (competitions : List Competition) : List Competition :=
  competitions.insertionSort fun first second => second.date ≤ first.date

/-- The documents with these ids, in these versions. -/
def documents (s : App) (chosen : List (String × Nat)) : List Document :=
  chosen.filterMap fun entry =>
    (s.versions entry.1)[entry.2]?.map fun data => ⟨entry.1, data⟩

/-- `viewDidLoad` builds the table view, which needs a table, and registers a
listener when the competition has an id. -/
def open? (s : App) (chosen : Competition) : Option App :=
  chosen.competitionTable.map fun table =>
    { s with
      competition := some chosen
      screen := some { competitionId := chosen.id, qty := table.qtyPlayers }
      listeners := s.listeners ++ chosen.id.toList }

def step? (s : App) : Action → Option App
  | .receiveList chosen =>
      some (if (s.documents chosen).isEmpty then s
        else { s with
          competitions := sortedByDate (Database.getAllCompetitions (s.documents chosen)) })
  | .pressCompetition index =>
      -- the list does not react while the screen of a competition is open
      if s.screen.isSome then none
      else s.competitions[index]?.bind s.open?
  | .back =>
      match s.screen with
      | some { matchViewController := none, .. } => some { s with screen := none }
      | _ => none
  | .choose sectionOfMatch rowOfMatch =>
      match s.screen with
      | some { matchViewController := none, competitionId, qty } =>
          if sectionOfMatch = rowOfMatch ∨ ¬ (sectionOfMatch < qty ∧ rowOfMatch < qty) then
            none
          else
            match chooseMatch s.competition sectionOfMatch rowOfMatch with
            | .error _ => none
            | .ok none => some s
            | .ok (some opened) =>
                some { s with
                  screen := some { competitionId, qty, matchViewController := some opened } }
      | _ => none
  | .finish scorePlayer1 scorePlayer2 =>
      match s.screen with
      | some { matchViewController := some opened, competitionId, qty } =>
          let finished := opened.finishMatch scorePlayer1 scorePlayer2
          match winning s.competition finished.played with
          | .error _ => none
          | .ok (competition, document) =>
              some { s with
                competition := some competition
                screen := some { competitionId, qty, matchViewController := some finished }
                inFlight := s.inFlight ++ [document]
                finished := s.finished ++ [⟨competitionId, competition.id, document⟩] }
      | _ => none
  | .dismiss =>
      match s.screen with
      | some { matchViewController := some _, competitionId, qty } =>
          some { s with screen := some { competitionId, qty } }
      | _ => none
  | .deliver documentID version =>
      if documentID ∈ s.listeners then
        (s.versions documentID)[version]?.map fun data =>
          { s with competition := receiveSnapshot s.competition ⟨documentID, data⟩ }
      else none
  | .commit write =>
      s.inFlight[write]?.map fun document =>
        { s with
          versions := Function.update s.versions document.documentID
            (s.versions document.documentID ++ [document.data])
          inFlight := s.inFlight.eraseIdx write }
  | .fail write =>
      if write < s.inFlight.length then
        some { s with inFlight := s.inFlight.eraseIdx write }
      else none

end App

end Navigation

end AnyCompetition
