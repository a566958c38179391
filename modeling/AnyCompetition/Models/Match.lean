import AnyCompetition.Models.User

/-!
# Matches

A match is stored in two cells of the tournament table: in the row of its first
player, and mirrored in the row of its second player.
-/

namespace AnyCompetition

open Json

structure MatchIndex where
  indexOfPlayer : Int
  indexOfMatch : Int
  deriving DecidableEq, Repr

def MatchIndex.dictionary (index : MatchIndex) : Fields :=
  [("indexOfPlayer", .number index.indexOfPlayer),
   ("indexOfMatch", .number index.indexOfMatch)]

structure Match where
  player1 : User
  player2 : User
  isDone : Bool := false
  isWinned : Bool := false
  scorePlayer1 : Int := 0
  scorePlayer2 : Int := 0
  matchIndex : MatchIndex

namespace Match

def init (player1 player2 : User) (matchIndex : MatchIndex) : Match :=
  { player1, player2, matchIndex }

def dictionary (played : Match) : Fields :=
  [("player1", .object played.player1.dictionary),
   ("player2", .object played.player2.dictionary),
   ("isDone", .bool played.isDone),
   ("isWinned", .bool played.isWinned),
   ("scorePlayer1", .number played.scorePlayer1),
   ("scorePlayer2", .number played.scorePlayer2),
   ("matchIndex", .object played.matchIndex.dictionary)]

/-- A match that is already done keeps its scores. -/
def makeMatch (played : Match) (scorePlayer1 scorePlayer2 : Int) : Match :=
  if !played.isDone then
    { played with
      scorePlayer1
      scorePlayer2
      isDone := true
      isWinned := if scorePlayer1 > scorePlayer2 then true else false }
  else played

/-- The match as the second player sees it; only the argument of the source's
method is read. -/
def makeMirrorMatch (played : Match) : Match :=
  let mirrorMatch := Match.init played.player2 played.player1
    ⟨played.matchIndex.indexOfMatch, played.matchIndex.indexOfPlayer⟩
  { mirrorMatch with
    isDone := played.isDone
    scorePlayer1 := played.scorePlayer2
    scorePlayer2 := played.scorePlayer1
    isWinned := if played.scorePlayer2 > played.scorePlayer1 then true else false }

/-- The match with no document id in its two players. -/
def withoutDocId (played : Match) : Match :=
  { played with
    player1 := played.player1.withoutDocId
    player2 := played.player2.withoutDocId }

/-- The stored winning flag says that the first score is the greater one. -/
def FlagAgrees (played : Match) : Prop :=
  played.isWinned = decide (played.scorePlayer1 > played.scorePlayer2)

theorem makeMatch_of_done {played : Match} (done : played.isDone = true) (a b : Int) :
    played.makeMatch a b = played := by
  simp [makeMatch, done]

theorem makeMatch_of_not_done {played : Match} (open_ : played.isDone = false)
    (a b : Int) :
    played.makeMatch a b =
      { played with
        scorePlayer1 := a
        scorePlayer2 := b
        isDone := true
        isWinned := decide (a > b) } := by
  simp [makeMatch, open_]

@[simp]
theorem makeMatch_isDone (played : Match) (a b : Int) :
    (played.makeMatch a b).isDone = true := by
  cases hdone : played.isDone <;> simp [makeMatch, hdone]

@[simp]
theorem makeMatch_matchIndex (played : Match) (a b : Int) :
    (played.makeMatch a b).matchIndex = played.matchIndex := by
  cases hdone : played.isDone <;> simp [makeMatch, hdone]

@[simp]
theorem makeMatch_player1 (played : Match) (a b : Int) :
    (played.makeMatch a b).player1 = played.player1 := by
  cases hdone : played.isDone <;> simp [makeMatch, hdone]

@[simp]
theorem makeMatch_player2 (played : Match) (a b : Int) :
    (played.makeMatch a b).player2 = played.player2 := by
  cases hdone : played.isDone <;> simp [makeMatch, hdone]

theorem makeMatch_flagAgrees {played : Match} (agrees : played.FlagAgrees) (a b : Int) :
    (played.makeMatch a b).FlagAgrees := by
  cases hdone : played.isDone with
  | false =>
      rw [makeMatch_of_not_done hdone]
      rfl
  | true =>
      rw [makeMatch_of_done hdone]
      exact agrees

@[simp]
theorem makeMirrorMatch_isDone (played : Match) :
    played.makeMirrorMatch.isDone = played.isDone := rfl

@[simp]
theorem makeMirrorMatch_scorePlayer1 (played : Match) :
    played.makeMirrorMatch.scorePlayer1 = played.scorePlayer2 := rfl

@[simp]
theorem makeMirrorMatch_scorePlayer2 (played : Match) :
    played.makeMirrorMatch.scorePlayer2 = played.scorePlayer1 := rfl

@[simp]
theorem makeMirrorMatch_isWinned (played : Match) :
    played.makeMirrorMatch.isWinned =
      decide (played.scorePlayer2 > played.scorePlayer1) := by
  simp [makeMirrorMatch]

theorem makeMirrorMatch_flagAgrees (played : Match) :
    played.makeMirrorMatch.FlagAgrees :=
  played.makeMirrorMatch_isWinned

/-- Mirroring twice gives the match back when its flag agrees with its scores. -/
theorem makeMirrorMatch_makeMirrorMatch {played : Match} (agrees : played.FlagAgrees) :
    played.makeMirrorMatch.makeMirrorMatch = played := by
  cases played
  simp only [FlagAgrees] at agrees
  simp [makeMirrorMatch, init, agrees]

/-- Entering `a : b` and mirroring is mirroring and entering `b : a`. -/
theorem makeMirrorMatch_makeMatch (played : Match) (a b : Int) :
    (played.makeMatch a b).makeMirrorMatch = played.makeMirrorMatch.makeMatch b a := by
  cases hdone : played.isDone <;> simp [makeMatch, makeMirrorMatch, init, hdone]

@[simp]
theorem makeMirrorMatch_withoutDocId (played : Match) :
    played.withoutDocId.makeMirrorMatch = played.makeMirrorMatch.withoutDocId := rfl

end Match

end AnyCompetition
