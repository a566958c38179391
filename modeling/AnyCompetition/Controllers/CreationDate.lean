import AnyCompetition.Controllers.AddCompetition
import AnyCompetition.Library.Calendar
import AnyCompetition.Library.FixedWidth
import AnyCompetition.Navigation.CompetitionList
import Mathlib.Data.Rat.Floor

/-!
# Dates of creation

A new competition is dated with the description of the current instant, and the
list compares these descriptions as text.  In the years 1 to 9999 this is the order
of the instants, cut to whole seconds.
-/

namespace AnyCompetition

open Calendar FixedWidth Navigation

namespace Date

/-- The widths and the separators of `yyyy-MM-dd HH:mm:ss +0000`. -/
def shape : List (Nat × List Char) :=
  [(4, ['-']), (2, ['-']), (2, [' ']), (2, [':']), (2, [':']),
    (2, [' ', '+', '0', '0', '0', '0'])]

/-- The instant, in seconds from the beginning of year 1 on, cut to whole seconds. -/
def description (instant : ℚ) : String :=
  String.ofList (render shape (components ⌊instant⌋₊))

/-- An instant of the years 1 to 9999. -/
def InYears (instant : ℚ) : Prop :=
  0 ≤ instant ∧ instant < endOfYear 9999

/-- Every year has at least 365 days. -/
theorem inYears_of_lt {instant : ℚ} (nonneg : 0 ≤ instant)
    (hlt : instant < (86400 * (9999 * 365) : Nat)) : InYears instant := by
  refine ⟨nonneg, hlt.trans_le (Nat.cast_le.mpr ?_)⟩
  exact Nat.mul_le_mul_left 86400 (years.mul_shortest_le_start 9999)

theorem fits_components {instant : ℚ} (inYears : InYears instant) :
    Fits shape (components ⌊instant⌋₊) := by
  have hseconds : ⌊instant⌋₊ < endOfYear 9999 :=
    (Nat.floor_lt inYears.1).mpr inYears.2
  obtain ⟨year, month, day, hour, minute, second, hcomponents, hyear, hmonth, hday, hhour,
    hminute, hsecond⟩ := components_of_lt_endOfYear hseconds
  rw [hcomponents]
  exact .cons hyear (.cons hmonth (.cons hday (.cons hhour (.cons hminute
    (.cons hsecond .nil)))))

/-- Descriptions are ordered as the whole seconds of their instants. -/
theorem description_lt_iff {first second : ℚ} (hfirst : InYears first)
    (hsecond : InYears second) :
    description first < description second ↔ ⌊first⌋₊ < ⌊second⌋₊ := by
  rw [description, description, String.lt_iff, String.toList_ofList, String.toList_ofList,
    render_lt_iff (fits_components hfirst) (fits_components hsecond), components_lt_iff]

example : description 63807127200 = "2022-12-20 10:00:00 +0000" := by decide +kernel

end Date

/-- The competition has the date that a tap on the button gave it at an instant of the years
1 to 9999. -/
structure CreatedAt (competition : Competition) (instant : ℚ) : Prop where
  inYears : Date.InYears instant
  tapped : ∃ (screen : AddCompetitionViewController) (title : Option String) (created : Competition)
    (sent : Json.Fields),
    screen.tapAddCompetitionButton title (Date.description instant) =
      .ok (.dismissed created sent) ∧
    competition.date = created.date

/-- A tap that creates a competition dates it with the description given. -/
theorem AddCompetitionViewController.date_of_tap {screen : AddCompetitionViewController}
    {title : Option String} {now : String} {created : Competition} {sent : Json.Fields}
    (tapped : screen.tapAddCompetitionButton title now = .ok (.dismissed created sent)) :
    created.date = now := by
  unfold tapAddCompetitionButton at tapped
  dsimp only at tapped
  split at tapped
  · cases tapped
  · split at tapped
    · cases tapped
    · simp only [Trap.bind_eq_ok_iff] at tapped
      obtain ⟨_, _, _, _, competition, hcreated, _, _, ⟨⟩⟩ := tapped
      obtain ⟨_, _, ⟨⟩⟩ := Trap.bind_eq_ok_iff.mp hcreated
      rfl

theorem CreatedAt.date {competition : Competition} {instant : ℚ}
    (createdAt : CreatedAt competition instant) :
    competition.date = Date.description instant := by
  obtain ⟨screen, title, created, sent, tapped, hdate⟩ := createdAt.tapped
  rw [hdate, AddCompetitionViewController.date_of_tap tapped]

theorem CreatedAt.date_lt_iff {first second : Competition × ℚ}
    (hfirst : CreatedAt first.1 first.2) (hsecond : CreatedAt second.1 second.2) :
    first.1.date < second.1.date ↔ ⌊first.2⌋₊ < ⌊second.2⌋₊ := by
  rw [hfirst.date, hsecond.date, Date.description_lt_iff hfirst.inYears hsecond.inYears]

/-! ## Two competitions within a minute -/

/-- Two players with ids, chosen for a competition. -/
def twoChosen : AddCompetitionViewController where
  user := none
  playersArray := [.anna, .boris]

def cup (instant : ℚ) : Competition where
  title := "Cup"
  qtyPlayers := 2
  date := Date.description instant
  accessUsersIdArray := ["u1", "u2"]
  players := twoChosen.playersArray

theorem createdAt_cup {instant : ℚ} (inYears : Date.InYears instant) :
    CreatedAt (cup instant) instant :=
  ⟨inYears, twoChosen, some "Cup", _, _, rfl, rfl⟩

/--
For every list of competitions dated by the button at instants of the years 1 to
9999: the text comparison orders any two of them as their instants cut to seconds, and
the shown list is the received one with the latest instant first.
-/
theorem sortedByDate_newest_first (created : List (Competition × ℚ))
    (dated : ∀ entry ∈ created, CreatedAt entry.1 entry.2) :
    (∀ first ∈ created, ∀ second ∈ created,
      (first.1.date < second.1.date ↔ ⌊first.2⌋₊ < ⌊second.2⌋₊)) ∧
    ∃ shown : List (Competition × ℚ), shown.Perm created ∧
      App.sortedByDate (created.map Prod.fst) = shown.map Prod.fst ∧
      shown.Pairwise fun first second => ⌊second.2⌋₊ ≤ ⌊first.2⌋₊ := by
  have hdate : ∀ first ∈ created, ∀ second ∈ created,
      (first.1.date < second.1.date ↔ ⌊first.2⌋₊ < ⌊second.2⌋₊) :=
    fun first hfirst second hsecond =>
      (dated first hfirst).date_lt_iff (dated second hsecond)
  have hmap : (created.insertionSort fun first second => NotBefore first.1 second.1).map
      Prod.fst = App.sortedByDate (created.map Prod.fst) :=
    List.map_insertionSort _ _ Prod.fst created fun _ _ _ _ => Iff.rfl
  have hperm := List.perm_insertionSort
    (fun first second : Competition × ℚ => NotBefore first.1 second.1) created
  have hsorted := App.pairwise_sortedByDate (created.map Prod.fst)
  rw [← hmap, List.pairwise_map] at hsorted
  refine ⟨hdate, _, hperm, hmap.symm, ?_⟩
  refine List.Pairwise.imp_of_mem ?_ hsorted
  intro first second hfirst hsecond notBefore
  have hlt := hdate first (hperm.mem_iff.mp hfirst) second (hperm.mem_iff.mp hsecond)
  exact Nat.le_of_not_lt fun less => String.not_lt.mpr notBefore (hlt.mpr less)

/-- Half a second before ten o'clock and one minute later. -/
theorem sortedByDate_newest_first_two :
    let early : ℚ := 63807127200 - 1 / 2
    let late : ℚ := early + 60
    (cup early).date = "2022-12-20 09:59:59 +0000" ∧
    (cup late).date = "2022-12-20 10:00:59 +0000" ∧
    ∃ shown : List (Competition × ℚ), shown.Perm [(cup early, early), (cup late, late)] ∧
      App.sortedByDate [cup early, cup late] = shown.map Prod.fst ∧
      shown.Pairwise fun first second => ⌊second.2⌋₊ ≤ ⌊first.2⌋₊ := by
  intro early late
  have hearly : Date.InYears early :=
    Date.inYears_of_lt (by decide +kernel) (by decide +kernel)
  have hlate : Date.InYears late :=
    Date.inYears_of_lt (by decide +kernel) (by decide +kernel)
  refine ⟨by decide +kernel, by decide +kernel, ?_⟩
  refine (sortedByDate_newest_first [(cup early, early), (cup late, late)] ?_).2
  intro entry membership
  rcases List.mem_pair.mp membership with rfl | rfl
  · exact createdAt_cup hearly
  · exact createdAt_cup hlate

end AnyCompetition
