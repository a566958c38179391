import AnyCompetition.Controllers.AddCompetition

/-!
# What the button of a new competition sends

The tap needs a title, two players and an id of each.  What it sends is a fresh competition
of the players, open to exactly these users.
-/

namespace AnyCompetition

open Json Trap

/-- A competition as it is sent by the button of a new competition. -/
structure Sent (origin : Competition) : Prop where
  two_le : 2 ≤ origin.players.length
  access : origin.accessUsersIdArray.map some = origin.players.map User.id
  wellFormed : origin.WellFormed origin

/-- The users with access are the players. -/
theorem Sent.mem_access_iff {origin : Competition} (sent : Sent origin) (uid : String) :
    uid ∈ origin.accessUsersIdArray ↔ ∃ player ∈ origin.players, player.id = some uid := by
  rw [← List.mem_map, ← sent.access]
  simp

variable {screen : AddCompetitionViewController}

/-- What is sent was made from the title, the date, and the players and their ids. -/
theorem init_of_tap {title : Option String} {now : String} {origin : Competition}
    {written : Fields}
    (tapped : screen.tapAddCompetitionButton title now = .ok (.dismissed origin written)) :
    2 ≤ screen.playersArray.length ∧ ∃ text ids, title = some text ∧
      screen.playersArray.mapM (fun player => unwrap player.id) = .ok ids ∧
      Competition.init text screen.playersArray.length now screen.playersArray ids =
        .ok origin ∧
      origin.dictionary = .ok written := by
  unfold AddCompetitionViewController.tapAddCompetitionButton at tapped
  dsimp only at tapped
  split at tapped
  · cases tapped
  · split at tapped
    · cases tapped
    · rename_i enough
      simp only [bind_eq_ok_iff] at tapped
      obtain ⟨text, htext, ids, hids, created, hcreated, data, hwritten, ⟨⟩⟩ := tapped
      refine ⟨Nat.le_of_not_lt enough, text, ids, ?_, hids, hcreated, hwritten⟩
      cases title with
      | none => cases htext
      | some title =>
          cases htext
          rfl

theorem Sent.of_tap {title : Option String} {now : String} {origin : Competition}
    {written : Fields}
    (tapped : screen.tapAddCompetitionButton title now = .ok (.dismissed origin written)) :
    Sent origin ∧ origin.dictionary = .ok written ∧ title = some origin.title ∧
      origin.date = now ∧ origin.players = screen.playersArray := by
  obtain ⟨enough, text, ids, htitle, hids, hcreated, hwritten⟩ := init_of_tap tapped
  obtain ⟨hwellFormed, _⟩ := Competition.wellFormed_init hcreated
  obtain ⟨table, htable, ⟨⟩⟩ := bind_eq_ok_iff.mp hcreated
  exact ⟨⟨enough, map_some_of_mapM_unwrap hids, hwellFormed⟩, hwritten, htitle, rfl, rfl⟩

/-- A player without an id makes the button trap. -/
theorem tapAddCompetitionButton_trap {title : String} (now : String) (titled : title ≠ "")
    (enough : 2 ≤ screen.playersArray.length) {player : User}
    (membership : player ∈ screen.playersArray) (noId : player.id = none) :
    screen.tapAddCompetitionButton (some title) now = .error .unexpectedNil := by
  have htitle : ¬ some title = some "" := fun heq => titled (Option.some.inj heq)
  have hids := mapM_unwrap_trap membership noId
  rw [AddCompetitionViewController.tapAddCompetitionButton, if_neg htitle, if_neg (by omega),
    hids, unwrap_some]
  rfl

/-- With an id of every player the button sends a competition. -/
theorem exists_dismissed {title : String} (now : String) (titled : title ≠ "")
    (enough : 2 ≤ screen.playersArray.length)
    (ids : ∀ player ∈ screen.playersArray, player.id ≠ none) :
    ∃ competition written,
      screen.tapAddCompetitionButton (some title) now = .ok (.dismissed competition written) := by
  let selection : Selection := ⟨screen, screen.playersArray.filterMap User.id⟩
  have known : selection.Known := by
    intro id membership
    obtain ⟨player, hplayer, rfl⟩ := List.mem_map.mp membership
    cases hid : player.id with
    | none => exact absurd hid (ids player hplayer)
    | some id => exact List.mem_map_of_mem (List.mem_filterMap.mpr ⟨player, hplayer, hid⟩)
  obtain ⟨written, table, _, htap⟩ :=
    Selection.tapAddCompetitionButton_eq known now titled enough
  exact ⟨_, written, htap⟩

end AnyCompetition
