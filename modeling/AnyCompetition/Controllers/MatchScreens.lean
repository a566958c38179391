import AnyCompetition.Database.Documents
import AnyCompetition.Models.WellFormed

/-!
# The match screen and the table screen

A match screen holds its own copy of a match.  Finishing announces a winner,
enters the scores in the copy and hands the copy to the table screen, which
stores it in the current competition and writes the whole competition.
-/

namespace AnyCompetition

open Json Trap

/-- The two players of a match screen, in the order in which it shows them. -/
inductive Side where
  | player1
  | player2
  deriving DecidableEq, Repr

/-- What a match screen shows below the names of the players. -/
inductive MatchContent where
  | check (scorePlayer1Label scorePlayer2Label : String) (green : Side)
  | play
  deriving DecidableEq, Repr

structure MatchViewController where
  played : Match
  /-- The player of the last winning animation. -/
  winnedPlayer : Option Side := none

namespace MatchViewController

/-- A done match is shown for review, with the winner's score in green. -/
def setupViews (screen : MatchViewController) : MatchContent :=
  if screen.played.isDone then
    .check (toString screen.played.scorePlayer1) (toString screen.played.scorePlayer2)
      (if screen.played.scorePlayer1 > screen.played.scorePlayer2 then .player1
       else .player2)
  else .play

/-- The winner announced is decided by the scores entered, not by those stored. -/
def announce (scorePlayer1 scorePlayer2 : Int) : Side :=
  if scorePlayer1 > scorePlayer2 then .player1 else .player2

/-- The tap on the finish button, once both scores are parsed.  The match of the
resulting screen is handed to the delegate. -/
def finishMatch (screen : MatchViewController) (scorePlayer1 scorePlayer2 : Int) :
    MatchViewController :=
  { played := screen.played.makeMatch scorePlayer1 scorePlayer2
    winnedPlayer := some (announce scorePlayer1 scorePlayer2) }

end MatchViewController

namespace CompetitionViewController

/-- `competition?.competitionTable?.competitionTable[section].matchesOfPlayer[row]`. -/
def chooseMatch (competition : Option Competition) (sectionOfMatch rowOfMatch : Int) :
    Except Trap (Option MatchViewController) :=
  match competition.bind Competition.competitionTable with
  | none => .ok none
  | some table => do
      let row ← element table.competitionTable sectionOfMatch
      let played ← element row.matchesOfPlayer rowOfMatch
      return some { played }

/-- `competition?.competitionTable?.finishMatch(match)`. -/
def finishCurrent (competition : Option Competition) (played : Match) :
    Except Trap (Option Competition) :=
  match competition with
  | none => .ok none
  | some shown =>
      match shown.competitionTable with
      | none => .ok (some shown)
      | some table => do
          let finished ← table.finishMatch played
          return some { shown with competitionTable := some finished }

/-- The match is stored in the current competition at once, and the whole
competition is written to the document of its id. -/
def winning (competition : Option Competition) (played : Match) :
    Except Trap (Competition × Document) := do
  let current ← finishCurrent competition played
  let shown ← unwrap current
  let competitionId ← unwrap shown.id
  let document ← Database.updateCompetitionDataToDataBase shown competitionId
  return (shown, document)

/-- A snapshot replaces the current competition; one that does not decode is
dropped. -/
def receiveSnapshot (competition : Option Competition) (document : Document) :
    Option Competition :=
  match Database.decodeCompetition document with
  | some received => some received
  | none => competition

/-- In a table of the size of the players, the tapped cell is opened. -/
theorem chooseMatch_eq {competition : Competition} {table : CompetitionTable}
    {i j : Nat} {played : Match}
    (hasTable : competition.competitionTable = some table)
    (found : table.match? i j = some played) :
    chooseMatch (some competition) i j = .ok (some { played }) := by
  obtain ⟨cells, hcells, hplayed⟩ := Option.bind_eq_some_iff.mp found
  rw [CompetitionTable.cells, List.getElem?_map] at hcells
  obtain ⟨row, hrow, rfl⟩ := Option.map_eq_some_iff.mp hcells
  simp [chooseMatch, hasTable, element_of_getElem? hrow, element_of_getElem? hplayed,
    bind, Except.bind, pure, Except.pure]

/-- A tap outside the table traps. -/
theorem chooseMatch_trap {competition : Competition} {table : CompetitionTable}
    {i j : Nat} (hasTable : competition.competitionTable = some table)
    (missing : table.match? i j = none) :
    chooseMatch (some competition) i j = .error .indexOutOfRange := by
  rw [CompetitionTable.match?, SquareTable.cell?, CompetitionTable.cells,
    List.getElem?_map] at missing
  cases hrow : table.competitionTable[i]? with
  | none =>
      simp [chooseMatch, hasTable, element_of_getElem?_none hrow, bind, Except.bind]
  | some row =>
      rw [hrow] at missing
      have hcolumn : row.matchesOfPlayer[j]? = none := missing
      simp [chooseMatch, hasTable, element_of_getElem? hrow,
        element_of_getElem?_none hcolumn, bind, Except.bind]

/-- Finishing a match of an off-diagonal cell of a well-formed version stores it
and writes a document that reads back as what the device now shows. -/
theorem winning_eq {created shown : Competition} {table : CompetitionTable}
    {documentID : String} {played : Match} {i j : Nat}
    (hasTable : shown.competitionTable = some table)
    (hasId : shown.id = some documentID)
    (wellFormed : table.WellFormed created.players)
    (ofCell : played.OfCell created.players i j) (hi : i < created.players.length)
    (hj : j < created.players.length) :
    ∃ data,
      winning (some shown) played =
        .ok ({ shown with competitionTable := some (table.storeMatch i j played) },
          ⟨documentID, data⟩) ∧
      Database.decodeCompetition ⟨documentID, data⟩ =
        some { shown.withoutDocId with
          id := some documentID
          competitionTable := some (table.storeMatch i j played).withoutDocId } := by
  obtain ⟨data, written⟩ := Database.exists_dictionary
    { shown with competitionTable := some (table.storeMatch i j played) }
    rfl
  rw [hasId] at written
  refine ⟨data, ?_, ?_⟩
  · simp [winning, finishCurrent, hasTable, hasId, wellFormed.finishMatch ofCell hi hj,
      Database.updateCompetitionDataToDataBase_eq written, bind, Except.bind, pure,
      Except.pure]
  · exact Database.decodeCompetition_dictionary written documentID

end CompetitionViewController

end AnyCompetition
