import AnyCompetition.Controllers.MatchScreens
import AnyCompetition.Library.DecimalText
import AnyCompetition.Library.GuardedRun

/-!
# The two score fields

An edit of a score field is judged by a number of characters and by a range in 16-bit
units, and by nothing else.  Finishing forces both texts into integers: it goes
well exactly when both are numbers of one digit.
-/

namespace AnyCompetition

open Trap GuardedRun DecimalText

/-- A text as its 16-bit units. -/
abbrev Text := List UInt16

/-- The match screen with its two score fields. -/
structure ScoreFields where
  screen : MatchViewController
  scorePlayer1TextField : Text := []
  scorePlayer2TextField : Text := []
  /-- The scores of the taps on the finish button so far. -/
  parsed : List (Int × Int) := []
  /-- A tap on the finish button has stopped the program. -/
  trapped : Bool := false

namespace ScoreFields

inductive Action where
  /-- Units of a field, from `location` on, are to be replaced by a string. -/
  | edit (field : Side) (location length : Nat) (string : Text)
  | tapFinishMatchButton

def text (s : ScoreFields) : Side → Text
  | .player1 => s.scorePlayer1TextField
  | .player2 => s.scorePlayer2TextField

def setText (s : ScoreFields) (field : Side) (text : Text) : ScoreFields :=
  match field with
  | .player1 => { s with scorePlayer1TextField := text }
  | .player2 => { s with scorePlayer2TextField := text }

/-- The number of characters of a text, which may have several units each. -/
abbrev Count := Text → Nat

/-- At most one character may be left. -/
def shouldChangeCharactersIn (count : Count) (text : Text) (location length : Nat)
    (replacementString : Text) : Bool :=
  let currentCharacterCount : Int := count text
  if length + location > currentCharacterCount then false
  else
    let newLength := currentCharacterCount + count replacementString - length
    let maxLength := 1
    newLength ≤ maxLength

/-- What the system makes of the text after an edit is accepted. -/
def replace (text : Text) (location length : Nat) (replacementString : Text) : Text :=
  text.take location ++ replacementString ++ text.drop (location + length)

/-- The two forced conversions. -/
def scores (s : ScoreFields) : Except Trap (Int × Int) := do
  let scorePlayer1 ← unwrap (int? s.scorePlayer1TextField)
  let scorePlayer2 ← unwrap (int? s.scorePlayer2TextField)
  return (scorePlayer1, scorePlayer2)

def finishMatch (s : ScoreFields) : ScoreFields :=
  match s.scores with
  | .error _ => { s with trapped := true }
  | .ok (scorePlayer1, scorePlayer2) =>
      { s with
        screen := s.screen.finishMatch scorePlayer1 scorePlayer2
        parsed := s.parsed ++ [(scorePlayer1, scorePlayer2)] }

/-- The range of an edit lies in the text; nothing happens in a stopped program. -/
def step? (count : Count) (s : ScoreFields) : Action → Option ScoreFields
  | .edit field location length string =>
      if s.trapped then none
      else if (s.text field).length < location + length then none
      else if shouldChangeCharactersIn count (s.text field) location length string then
        some (s.setText field (replace (s.text field) location length string))
      else some s
  | .tapFinishMatchButton => if s.trapped then none else some s.finishMatch

/-- A score of one digit. -/
def IsScore (score : Int) : Prop :=
  0 ≤ score ∧ score ≤ 9

/-- No tap has stopped the program, each has found two scores of one digit, and whatever
is in a field can be read as such a score. -/
structure ParsesScores (s : ScoreFields) : Prop where
  running : s.trapped = false
  parsed : ∀ scores ∈ s.parsed, IsScore scores.1 ∧ IsScore scores.2
  filled : ∀ field, s.text field ≠ [] → ∃ score, int? (s.text field) = some score ∧ IsScore score

/-- A single character that is to replace the whole text of a field, maybe an empty one, is
a digit, and the finish button is tapped over two fields that are not empty. -/
def EntersDigits (count : Count) (s : ScoreFields) : Action → Prop
  | .edit field _ length string =>
      count string = 1 → length = (s.text field).length →
        ∃ digit, string = [digit] ∧ (digit? digit).isSome
  | .tapFinishMatchButton => ∀ field, s.text field ≠ []

/-- What is relied on of the characters: only the empty text has none, and digits and signs
are characters of their own. -/
structure CountsCharacters (count : Count) : Prop where
  eq_zero_iff : ∀ text, count text = 0 ↔ text = []
  digits : ∀ text : Text, (∀ unit ∈ text, (digit? unit).isSome ∨ unit = plus ∨ unit = minus) →
    count text = text.length

/-! ## What the filter accepts -/

/-- A field is empty or has one digit. -/
def Entered (text : Text) : Prop :=
  text = [] ∨ ∃ digit, text = [digit] ∧ (digit? digit).isSome

section Filter

variable {count : Count} {text string : Text} {location length : Nat}

theorem Entered.count_eq (counts : CountsCharacters count) (entered : Entered text) :
    count text = text.length := by
  apply counts.digits
  rintro unit membership
  rcases entered with rfl | ⟨digit, rfl, hdigit⟩
  · cases membership
  · rw [List.mem_singleton.mp membership]
    exact .inl hdigit

theorem Entered.length_le_one (entered : Entered text) : text.length ≤ 1 := by
  rcases entered with rfl | ⟨digit, rfl, _⟩
  · exact Nat.zero_le 1
  · exact Nat.le_refl 1

/-- The filter lets units be deleted and a single character replace the whole text. -/
theorem shouldChangeCharactersIn_iff (counts : CountsCharacters count) (entered : Entered text)
    (inside : location + length ≤ text.length) :
    shouldChangeCharactersIn count text location length string = true ↔
      string = [] ∨ count string = 1 ∧ length = text.length := by
  have hshort := entered.length_le_one
  have hrange : ¬ ((length : Int) + location > text.length) := by omega
  rw [← counts.eq_zero_iff, shouldChangeCharactersIn, entered.count_eq counts]
  dsimp only
  rw [if_neg hrange, decide_eq_true_eq]
  omega

theorem Entered.replace_nil (entered : Entered text) (location length : Nat) :
    Entered (replace text location length []) := by
  rcases entered with rfl | ⟨digit, rfl, hdigit⟩
  · left
    simp [replace]
  · cases location with
    | zero =>
        cases length with
        | zero => exact .inr ⟨digit, rfl, hdigit⟩
        | succ length =>
            left
            simp [replace]
    | succ location =>
        right
        refine ⟨digit, ?_, hdigit⟩
        simp [replace, Nat.succ_add]

theorem replace_all (inside : location + length ≤ text.length) (hlength : length = text.length) :
    replace text location length string = string := by
  obtain rfl : location = 0 := by omega
  rw [replace, List.take_zero, List.nil_append, List.drop_eq_nil_of_le (by omega),
    List.append_nil]

/-- A single character can be read as a score of one digit just when it is a digit. -/
theorem isScore_iff (counts : CountsCharacters count) (hsingle : count string = 1) :
    (∃ score, int? string = some score ∧ IsScore score) ↔
      ∃ digit, string = [digit] ∧ (digit? digit).isSome := by
  simp only [IsScore]
  rw [int?_between_iff]
  constructor
  · intro oneDigit
    have hlength := counts.digits string oneDigit.digit_or_sign
    rw [hsingle] at hlength
    obtain ⟨digit, rfl⟩ := List.length_eq_one_iff.mp hlength.symm
    exact ⟨digit, rfl, oneDigit_singleton_iff.mp oneDigit⟩
  · rintro ⟨digit, rfl, hdigit⟩
    exact oneDigit_singleton_iff.mpr hdigit

end Filter

/-! ## One step -/

variable {count : Count} {s t : ScoreFields}

/-- An edit is rejected, or changes one text. -/
theorem edit_cases {field : Side} {location length : Nat} {string : Text}
    (hstep : s.step? count (.edit field location length string) = some t) :
    s.trapped = false ∧ location + length ≤ (s.text field).length ∧
      (shouldChangeCharactersIn count (s.text field) location length string = false ∧ t = s ∨
        shouldChangeCharactersIn count (s.text field) location length string = true ∧
          t = s.setText field (replace (s.text field) location length string)) := by
  rw [step?] at hstep
  split at hstep
  · cases hstep
  · rename_i running
    refine ⟨Bool.eq_false_iff.mpr running, ?_⟩
    split at hstep
    · cases hstep
    · rename_i inside
      refine ⟨Nat.le_of_not_lt inside, ?_⟩
      split at hstep
      · rename_i accepted
        cases hstep
        exact .inr ⟨accepted, rfl⟩
      · rename_i rejected
        cases hstep
        exact .inl ⟨Bool.eq_false_iff.mpr rejected, rfl⟩

theorem tap_cases (hstep : s.step? count .tapFinishMatchButton = some t) :
    s.trapped = false ∧ t = s.finishMatch := by
  rw [step?] at hstep
  split at hstep
  · cases hstep
  · rename_i running
    cases hstep
    exact ⟨Bool.eq_false_iff.mpr running, rfl⟩

theorem text_finishMatch (s : ScoreFields) (field : Side) :
    s.finishMatch.text field = s.text field := by
  unfold finishMatch
  split <;> cases field <;> rfl

/-- Both fields are empty or have a digit. -/
def EnteredBoth (s : ScoreFields) : Prop :=
  ∀ field, Entered (s.text field)

theorem EnteredBoth.filled (entered : EnteredBoth s) (field : Side)
    (notEmpty : s.text field ≠ []) :
    ∃ score, int? (s.text field) = some score ∧ IsScore score := by
  rcases entered field with hempty | ⟨digit, htext, hdigit⟩
  · exact absurd hempty notEmpty
  · rw [htext]
    exact (int?_between_iff [digit]).mpr (oneDigit_singleton_iff.mpr hdigit)

/-- The text of one field is changed. -/
theorem forall_setText {P : Text → Prop} {field : Side} {text : Text} (new : P text)
    (old : ∀ other, P (s.text other)) : ∀ other, P ((s.setText field text).text other) := by
  intro other
  cases field <;> cases other
  · exact new
  · exact old .player2
  · exact old .player1
  · exact new

theorem text_setText_same (s : ScoreFields) (field : Side) (text : Text) :
    (s.setText field text).text field = text := by
  cases field <;> rfl

/-- An empty field stops the program. -/
theorem trapped_finishMatch {field : Side} (hempty : s.text field = []) :
    s.finishMatch.trapped = true := by
  have htrap : s.scores = .error .unexpectedNil := by
    cases field with
    | player1 =>
        rw [scores, show s.scorePlayer1TextField = [] from hempty]
        rfl
    | player2 =>
        rw [scores, show s.scorePlayer2TextField = [] from hempty]
        cases int? s.scorePlayer1TextField <;> rfl
  rw [finishMatch, htrap]

/-- A tap parses two scores of one digit when no field is empty, and only then. -/
theorem parsesScores_finishMatch_iff (parses : ParsesScores s) :
    ParsesScores s.finishMatch ↔ ∀ field, s.text field ≠ [] := by
  constructor
  · rintro next field hempty
    have running := next.running
    rw [trapped_finishMatch hempty] at running
    cases running
  · intro filled
    obtain ⟨scorePlayer1, hfirst, isFirst⟩ := parses.filled .player1 (filled .player1)
    obtain ⟨scorePlayer2, hsecond, isSecond⟩ := parses.filled .player2 (filled .player2)
    have hfinish : s.finishMatch = { s with
        screen := s.screen.finishMatch scorePlayer1 scorePlayer2
        parsed := s.parsed ++ [(scorePlayer1, scorePlayer2)] } := by
      rw [finishMatch, scores, show int? s.scorePlayer1TextField = _ from hfirst,
        show int? s.scorePlayer2TextField = _ from hsecond]
      rfl
    rw [hfinish]
    refine ⟨parses.running, ?_, parses.filled⟩
    intro scores membership
    rcases List.mem_append.mp membership with before | last
    · exact parses.parsed scores before
    · rw [List.mem_singleton.mp last]
      exact ⟨isFirst, isSecond⟩

/-- An edit that meets the guard leaves a digit or nothing in the field. -/
theorem EnteredBoth.step (counts : CountsCharacters count) (entered : EnteredBoth s)
    {action : Action} (guard : EntersDigits count s action)
    (hstep : s.step? count action = some t) : EnteredBoth t := by
  cases action with
  | tapFinishMatchButton =>
      obtain ⟨_, rfl⟩ := tap_cases hstep
      intro field
      rw [text_finishMatch]
      exact entered field
  | edit field location length string =>
      obtain ⟨_, inside, ⟨_, rfl⟩ | ⟨accepted, rfl⟩⟩ := edit_cases hstep
      · exact entered
      · refine forall_setText ?_ entered
        rcases (shouldChangeCharactersIn_iff counts (entered field) inside).mp accepted with
          rfl | ⟨hsingle, hlength⟩
        · exact (entered field).replace_nil location length
        · rw [replace_all inside hlength]
          exact .inr (guard hsingle hlength)

theorem parsesScores_edit_iff (counts : CountsCharacters count) (entered : EnteredBoth s)
    (parses : ParsesScores s) {field : Side} {location length : Nat} {string : Text}
    (hstep : s.step? count (.edit field location length string) = some t) :
    ParsesScores t ↔ EntersDigits count s (.edit field location length string) := by
  constructor
  · intro next hsingle hlength
    obtain ⟨_, inside, hcases⟩ := edit_cases hstep
    have accepted := (shouldChangeCharactersIn_iff counts (entered field) inside).mpr
      (.inr ⟨hsingle, hlength⟩)
    rcases hcases with ⟨rejected, _⟩ | ⟨_, rfl⟩
    · rw [accepted] at rejected
      cases rejected
    · have filled := next.filled field
      rw [text_setText_same, replace_all inside hlength] at filled
      refine (isScore_iff counts hsingle).mp (filled ?_)
      rintro rfl
      rw [(counts.eq_zero_iff []).mpr rfl] at hsingle
      cases hsingle
  · intro guard
    have next := entered.step counts guard hstep
    obtain ⟨_, _, ⟨_, rfl⟩ | ⟨_, rfl⟩⟩ := edit_cases hstep
    · exact parses
    · refine ⟨?_, ?_, next.filled⟩
      · cases field <;> exact parses.running
      · cases field <;> exact parses.parsed

theorem parsesScores_step_iff (counts : CountsCharacters count) (entered : EnteredBoth s)
    (parses : ParsesScores s) {action : Action} (hstep : s.step? count action = some t) :
    ParsesScores t ↔ EntersDigits count s action := by
  cases action with
  | edit field location length string => exact parsesScores_edit_iff counts entered parses hstep
  | tapFinishMatchButton =>
      obtain ⟨_, rfl⟩ := tap_cases hstep
      exact parsesScores_finishMatch_iff parses

/-! ## Texts with a mark -/

/-- The number sign of the arabic script, one character with the one after it. -/
abbrev mark : UInt16 := 0x0600

/-- The characters of a text without other units that join. -/
def characters : Count
  | [] => 0
  | [_] => 1
  | unit :: next :: rest =>
      if unit = mark then characters (next :: rest) else characters (next :: rest) + 1

theorem countsCharacters_characters : CountsCharacters characters where
  eq_zero_iff text := by
    induction text with
    | nil => exact ⟨fun _ => rfl, fun _ => rfl⟩
    | cons unit rest ih =>
        refine ⟨fun hzero => ?_, fun hnil => by cases hnil⟩
        cases rest with
        | nil => cases hzero
        | cons next rest =>
            rw [characters] at hzero
            split at hzero
            · cases ih.mp hzero
            · cases hzero
  digits text units := by
    induction text with
    | nil => rfl
    | cons unit rest ih =>
        cases rest with
        | nil => rfl
        | cons next rest =>
            have hunit : unit ≠ mark := by
              rintro rfl
              have hmark := units mark List.mem_cons_self
              revert hmark
              decide
            rw [characters, if_neg hunit,
              ih fun other membership => units other (List.mem_cons_of_mem _ membership)]
            rfl

def played : MatchViewController where
  played := Match.init .anna .boris ⟨0, 1⟩

/--
For every sequence of edits of the two fields and taps on the finish button, starting with
empty fields: at every point each field that is not empty can be read as an integer
between 0 and 9, and each tap has found such integers in both, if and only if every
single character that is to replace the whole text of a field is a digit and no tap finds
an empty field.
-/
theorem parsesScores_throughout_iff (counts : CountsCharacters count)
    (screen : MatchViewController) (actions : List Action) :
    Throughout (step? count) ParsesScores { screen } actions ↔
      Along (step? count) (EntersDigits count) { screen } actions := by
  refine throughout_iff_along EnteredBoth
    (fun entered _ guard hstep => entered.step counts guard hstep)
    (fun entered parses hstep => parsesScores_step_iff counts entered parses hstep) ?_
    ⟨rfl, fun _ membership => absurd membership List.not_mem_nil, ?_⟩
  · intro field
    cases field <;> exact .inl rfl
  · intro field filled
    cases field <;> exact absurd rfl filled

/-- A digit is typed, a second one is rejected, and the first is replaced. -/
theorem parsesScores_throughout_iff_three_digits :
    let actions : List Action := [
      .edit .player1 0 0 [50], .edit .player1 1 0 [53], .edit .player1 0 1 [51],
      .edit .player2 0 0 [49], .tapFinishMatchButton]
    (run? (step? characters) { screen := played } actions).any
      (fun final => final.parsed = [(3, 1)]) = true ∧
    (Throughout (step? characters) ParsesScores { screen := played } actions ↔
      Along (step? characters) (EntersDigits characters) { screen := played } actions) := by
  intro actions
  exact ⟨by decide +kernel,
    parsesScores_throughout_iff countsCharacters_characters played actions⟩

/-- A tap over empty fields and a tap over a pasted letter stop the program; and a digit
that replaces a mark, with which a pasted digit was one character, makes 55. -/
theorem taps_without_two_digits :
    CountsCharacters characters ∧
    (∃ final, run? (step? characters) { screen := played } [.tapFinishMatchButton] =
        some final ∧
      final.trapped = true ∧ ¬ ParsesScores final) ∧
    (∃ final, run? (step? characters) { screen := played }
        [.edit .player1 0 0 [97], .edit .player2 0 0 [49], .tapFinishMatchButton] =
          some final ∧
      final.scorePlayer1TextField = [97] ∧ final.trapped = true ∧ ¬ ParsesScores final) ∧
    ∃ final, run? (step? characters) { screen := played }
        [.edit .player1 0 0 [mark, 53], .edit .player1 0 1 [53], .edit .player2 0 0 [49],
         .tapFinishMatchButton] = some final ∧
      final.parsed = [(55, 1)] ∧ ¬ ParsesScores final := by
  refine ⟨countsCharacters_characters, ⟨_, rfl, rfl, ?_⟩, ⟨_, rfl, rfl, rfl, ?_⟩, ⟨_, rfl, rfl, ?_⟩⟩
  · exact fun parses => by cases parses.running
  · exact fun parses => by cases parses.running
  · exact fun parses => absurd (parses.parsed (55, 1) List.mem_cons_self).1.2 (by decide)

end ScoreFields

end AnyCompetition
