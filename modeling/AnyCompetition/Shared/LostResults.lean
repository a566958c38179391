import AnyCompetition.Library.PendingWrites
import AnyCompetition.Shared.HeldTables

/-!
# Lost results

A finish writes the whole competition from the copy of its device, and the
transaction reads nothing.  A stored result survives when every device has seen
the results it overwrites and the writes commit in an order that keeps them;
any other finish or commit lets a stored result be lost by commits alone.
-/

namespace AnyCompetition

open SquareTable

namespace CompetitionTable

/-- Two matches are finished with the same scores. -/
def SameResult (first second : Match) : Prop :=
  first.isDone = true ∧ second.isDone = true ∧
    first.scorePlayer1 = second.scorePlayer1 ∧ first.scorePlayer2 = second.scorePlayer2

/-- Every result of the earlier table stands in the later one, and so does a set
finished flag. -/
structure KeptIn (earlier later : CompetitionTable) : Prop where
  result : ∀ i j played, earlier.match? i j = some played → played.isDone = true →
    ∃ kept, later.match? i j = some kept ∧ SameResult kept played
  finished : earlier.isCompetitionFinished = true → later.isCompetitionFinished = true

theorem KeptIn.trans {first second third : CompetitionTable} (before : KeptIn first second)
    (after : KeptIn second third) : KeptIn first third := by
  refine ⟨?_, fun finished => after.finished (before.finished finished)⟩
  intro i j played found done
  obtain ⟨middle, hmiddle, hdone, _, hfirst, hsecond⟩ := before.result i j played found done
  obtain ⟨kept, hkept, hkeptDone, _, hfirst', hsecond'⟩ :=
    after.result i j middle hmiddle hdone
  exact ⟨kept, hkept, hkeptDone, done, hfirst'.trans hfirst, hsecond'.trans hsecond⟩

theorem keptIn_withoutDocId_iff {earlier later : CompetitionTable} :
    KeptIn earlier later.withoutDocId ↔ KeptIn earlier later := by
  constructor
  · rintro ⟨result, finished⟩
    refine ⟨?_, finished⟩
    intro i j played found done
    obtain ⟨kept, hkept, hsame⟩ := result i j played found done
    rw [match?_withoutDocId] at hkept
    obtain ⟨source, hsource, rfl⟩ := Option.map_eq_some_iff.mp hkept
    exact ⟨source, hsource, hsame⟩
  · rintro ⟨result, finished⟩
    refine ⟨?_, finished⟩
    intro i j played found done
    obtain ⟨kept, hkept, hsame⟩ := result i j played found done
    refine ⟨kept.withoutDocId, ?_, hsame⟩
    rw [match?_withoutDocId, hkept, Option.map_some]

/-- The copy of a device shows all that another table records, except for the
open pair `i`, `j`, which may be recorded with the scores `a : b` only. -/
structure ShowsAllBut (copy recorded : CompetitionTable) (i j : Nat) (a b : Int) : Prop where
  own : ∀ played, recorded.match? i j = some played → played.isDone = true →
    played.scorePlayer1 = a ∧ played.scorePlayer2 = b
  others : ∀ k l played, ¬ (k = i ∧ l = j) → ¬ (k = j ∧ l = i) →
    recorded.match? k l = some played → played.isDone = true →
    ∃ shown, copy.match? k l = some shown ∧ SameResult shown played
  finished : recorded.isCompetitionFinished = true →
    copy.isCompetitionFinished = true ∨ copy.qtyFinishedGames + 1 = copy.qtyGames

/-- What a finish keeps of another table. -/
theorem keptIn_storeMatch_iff {players : List User} {copy recorded : CompetitionTable}
    (wellFormed : copy.WellFormed players) (recordedWellFormed : recorded.WellFormed players)
    {i j : Nat} {played : Match} (done : played.isDone = true) (hi : i < players.length)
    (hj : j < players.length) (hne : i ≠ j) :
    KeptIn recorded (copy.storeMatch i j played) ↔
      ShowsAllBut copy recorded i j played.scorePlayer1 played.scorePlayer2 := by
  have hcell := match?_storeMatch wellFormed.square played hi hj
  have hflag : (copy.storeMatch i j played).isCompetitionFinished = true ↔
      copy.isCompetitionFinished = true ∨ copy.qtyFinishedGames + 1 = copy.qtyGames := by
    simp [storeMatch]
  constructor
  · rintro ⟨result, finished⟩
    refine ⟨?_, ?_, fun recordedFlag => hflag.mp (finished recordedFlag)⟩
    · intro found hfound hdone
      obtain ⟨kept, hkept, _, _, hfirst, hsecond⟩ := result i j found hfound hdone
      rw [hcell, if_neg (by omega), if_pos ⟨rfl, rfl⟩] at hkept
      cases hkept
      exact ⟨hfirst.symm, hsecond.symm⟩
    · intro k l found hnot hnotMirror hfound hdone
      obtain ⟨kept, hkept, hsame⟩ := result k l found hfound hdone
      rw [hcell, if_neg hnotMirror, if_neg hnot] at hkept
      exact ⟨kept, hkept, hsame⟩
  · rintro ⟨own, others, finished⟩
    refine ⟨?_, fun recordedFlag => hflag.mpr (finished recordedFlag)⟩
    intro k l found hfound hdone
    rw [hcell]
    by_cases hmirrored : k = j ∧ l = i
    · obtain ⟨rfl, rfl⟩ := hmirrored
      have hother := recordedWellFormed.mirror _ _ found hfound
      obtain ⟨hfirst, hsecond⟩ := own _ hother hdone
      exact ⟨_, if_pos ⟨rfl, rfl⟩, done, hdone, hsecond.symm, hfirst.symm⟩
    · by_cases hown : k = i ∧ l = j
      · obtain ⟨rfl, rfl⟩ := hown
        obtain ⟨hfirst, hsecond⟩ := own found hfound hdone
        rw [if_neg hmirrored, if_pos ⟨rfl, rfl⟩]
        exact ⟨played, rfl, done, hdone, hfirst.symm, hsecond.symm⟩
      · rw [if_neg hmirrored, if_neg hown]
        exact others k l found hown hmirrored hfound hdone

end CompetitionTable

namespace Shared

open Json GuardedRun PendingWrites CompetitionTable

variable {ι : Type} [DecidableEq ι] {created : Competition} {s t : System ι}

/-- What one stored map records stands in another. -/
def Kept (documentID : String) (earlier later : Fields) : Prop :=
  ∀ old new, HoldsIn documentID earlier old → HoldsIn documentID later new → old.KeptIn new

/-- No committed version loses a result or the finished flag of an earlier one. -/
def NoResultLost (s : System ι) : Prop :=
  s.versions.Pairwise (Kept s.documentID)

/-- The scores that a finish stores: those of the open match when it is done. -/
def scoresStored (screen : MatchViewController) (a b : Int) : Int × Int :=
  if screen.played.isDone then (screen.played.scorePlayer1, screen.played.scorePlayer2)
  else (a, b)

/-- A finish is tapped on a device that shows what the stored document and the
writes in flight record, and a write commits when the older writes in flight
have all that it records. -/
def KeepsResults (s : System ι) : Action ι → Prop
  | .finish device a b => ∀ screen shown copy data recorded,
      (s.devices device).matchViewController = some screen →
      (s.devices device).competition = some shown →
      shown.competitionTable = some copy →
      (s.stored = some data ∨ ∃ write ∈ s.inFlight, write.document.data = data) →
      HoldsIn s.documentID data recorded →
      copy.ShowsAllBut recorded screen.played.matchIndex.indexOfPlayer.toNat
        screen.played.matchIndex.indexOfMatch.toNat
        (scoresStored screen a b).1 (scoresStored screen a b).2
  | .commit index => ∀ write position older, s.inFlight[index]? = some write →
      position < index → s.inFlight[position]? = some older →
      Kept s.documentID write.document.data older.document.data
  | _ => True

/-- The versions and after them the writes in flight, each keeping all before it. -/
def Ordered (s : System ι) : Prop :=
  (s.versions ++ s.inFlight.map (·.document.data)).Pairwise (Kept s.documentID)

theorem HoldsIn.unique {documentID : String} {data : Fields}
    {first second : CompetitionTable} (hfirst : HoldsIn documentID data first)
    (hsecond : HoldsIn documentID data second) : first = second := by
  obtain ⟨competition, hdecode, htable⟩ := hfirst
  obtain ⟨other, hother, hfound⟩ := hsecond
  rw [hdecode] at hother
  cases hother
  exact Option.some.inj (htable.symm.trans hfound)

theorem Version.exists_holdsIn {documentID : String} {data : Fields}
    (version : Version created documentID data) : ∃ table, HoldsIn documentID data table := by
  obtain ⟨stored, hdecode, _, hwellFormed⟩ := version
  obtain ⟨table, htable, _⟩ := hwellFormed.table
  exact ⟨table, stored, hdecode, htable⟩

theorem Kept.trans {documentID : String} {first second third : Fields}
    (version : Version created documentID second) (before : Kept documentID first second)
    (after : Kept documentID second third) : Kept documentID first third := by
  intro old new hold hnew
  obtain ⟨middle, hmiddle⟩ := version.exists_holdsIn
  exact (before old middle hold hmiddle).trans (after middle new hmiddle hnew)

theorem scoresStored_eq (screen : MatchViewController) (a b : Int) :
    scoresStored screen a b =
      ((screen.played.makeMatch a b).scorePlayer1,
        (screen.played.makeMatch a b).scorePlayer2) := by
  cases hdone : screen.played.isDone with
  | true => simp [scoresStored, hdone, Match.makeMatch_of_done hdone]
  | false => simp [scoresStored, hdone, Match.makeMatch_of_not_done hdone]

omit [DecidableEq ι] in
/-- What the write of a finish keeps of another stored map. -/
theorem Finishing.kept_iff {device : ι} {a b : Int} {screen : MatchViewController}
    {shown : Competition} {table : CompetitionTable} {i j : Nat} {data recordedIn : Fields}
    (finishing : Finishing created s device a b screen shown table i j data)
    (version : Version created s.documentID recordedIn) :
    Kept s.documentID recordedIn data ↔ ∀ recorded,
      HoldsIn s.documentID recordedIn recorded →
      table.ShowsAllBut recorded i j (scoresStored screen a b).1
        (scoresStored screen a b).2 := by
  obtain ⟨hne, hi, hj, _⟩ := finishing.openCell
  have hwritten : HoldsIn s.documentID data
      (table.storeMatch i j (screen.played.makeMatch a b)).withoutDocId :=
    ⟨_, finishing.data_eq, rfl⟩
  have hstore : ∀ recorded, HoldsIn s.documentID recordedIn recorded →
      (recorded.KeptIn (table.storeMatch i j (screen.played.makeMatch a b)).withoutDocId ↔
        table.ShowsAllBut recorded i j (scoresStored screen a b).1
          (scoresStored screen a b).2) := by
    intro recorded hrecorded
    rw [keptIn_withoutDocId_iff, scoresStored_eq]
    exact keptIn_storeMatch_iff finishing.wellFormed (version.wellFormed_of_holdsIn hrecorded)
      (screen.played.makeMatch_isDone a b) hi hj hne
  constructor
  · intro kept recorded hrecorded
    exact (hstore recorded hrecorded).mp (kept recorded _ hrecorded hwritten)
  · intro shows recorded new hrecorded hnew
    rw [HoldsIn.unique hnew hwritten]
    exact (hstore recorded hrecorded).mpr (shows recorded hrecorded)

omit [DecidableEq ι] in
/-- The guard of a finish says that its write keeps the stored document and the
writes in flight. -/
theorem Finishing.keepsResults_iff (consistent : Consistent created s) {device : ι}
    {a b : Int} {screen : MatchViewController} {shown : Competition}
    {table : CompetitionTable} {i j : Nat} {data : Fields}
    (finishing : Finishing created s device a b screen shown table i j data) :
    KeepsResults s (.finish device a b) ↔ ∀ recordedIn,
      (s.stored = some recordedIn ∨
        ∃ write ∈ s.inFlight, write.document.data = recordedIn) →
      Kept s.documentID recordedIn data := by
  have hindex := finishing.openCell.2.2.2.matchIndex
  have hversion : ∀ recordedIn, (s.stored = some recordedIn ∨
      ∃ write ∈ s.inFlight, write.document.data = recordedIn) →
      Version created s.documentID recordedIn := by
    rintro recordedIn (hstored | ⟨write, membership, rfl⟩)
    · exact consistent.versions recordedIn (List.mem_of_getLast? hstored)
    · exact (consistent.inFlight write membership).2
  constructor
  · intro guard recordedIn hrecordedIn
    rw [finishing.kept_iff (hversion recordedIn hrecordedIn)]
    intro recorded hrecorded
    simpa [hindex] using guard screen shown table recordedIn recorded finishing.screen_eq
      finishing.shown_eq finishing.table_eq hrecordedIn hrecorded
  · intro kept other copy found recordedIn recorded hother hcopy hfound hrecordedIn hrecorded
    rw [finishing.screen_eq] at hother
    cases hother
    rw [finishing.shown_eq] at hcopy
    cases hcopy
    rw [finishing.table_eq] at hfound
    cases hfound
    simpa [hindex] using (finishing.kept_iff (hversion recordedIn hrecordedIn)).mp
      (kept recordedIn hrecordedIn) recorded hrecorded

omit [DecidableEq ι] in
theorem Ordered.noResultLost (ordered : Ordered s) : NoResultLost s :=
  (List.pairwise_append.mp ordered).1

/-- A step that meets the guard keeps the order. -/
theorem Ordered.step (ordered : Ordered s) (consistent : Consistent created s)
    {action : Action ι} (guard : KeepsResults s action) (hstep : s.step? action = some t) :
    Ordered t := by
  cases consistent.stepped hstep with
  | choose | deliver => exact ordered
  | @finish device a b screen shown table i j data finishing =>
      rw [finishing.keepsResults_iff consistent] at guard
      unfold Ordered System.afterFinish System.issue
      simp only [List.map_append, List.map_cons, List.map_nil]
      refine pairwise_issue ordered ?_
      intro earlier membership
      rcases List.mem_append.mp membership with committed | pending
      · obtain ⟨current, hcurrent⟩ : ∃ current, s.stored = some current :=
          Option.isSome_iff_exists.mp
            (List.getLast?_isSome.mpr (List.ne_nil_of_mem committed))
        have hkept := guard current (Or.inl hcurrent)
        rcases eq_or_related_getLast ordered.noResultLost committed hcurrent with
          rfl | hearlier
        · exact hkept
        · exact hearlier.trans
            (consistent.versions current (List.mem_of_getLast? hcurrent)) hkept
      · obtain ⟨write, hwrite, rfl⟩ := List.mem_map.mp pending
        exact guard _ (Or.inr ⟨write, hwrite, rfl⟩)
  | @commit index write hwrite =>
      unfold Ordered
      simp only [← List.eraseIdx_map]
      refine pairwise_commit ordered (by rw [List.getElem?_map, hwrite]; rfl) ?_
      intro position other hposition hother
      rw [List.getElem?_map] at hother
      obtain ⟨older, holder, rfl⟩ := Option.map_eq_some_iff.mp hother
      exact guard write position older hwrite hposition holder
  | @fail index write hwrite =>
      unfold Ordered
      simp only [← List.eraseIdx_map]
      exact pairwise_drop ordered index

/-! ## Every other step lets a result be lost -/

/-- In a consistent state any write in flight can commit. -/
theorem Consistent.commit (consistent : Consistent created s) {index : Nat}
    {write : Write ι} (hwrite : s.inFlight[index]? = some write) :
    s.step? (.commit index) = some { s with
      versions := s.versions ++ [write.document.data]
      inFlight := s.inFlight.eraseIdx index } := by
  obtain ⟨hdocument, _⟩ := consistent.inFlight write (List.mem_of_getElem? hwrite)
  simp [System.step?, hwrite, hdocument]

omit [DecidableEq ι] in
/-- A version that does not keep an earlier one loses a result. -/
theorem not_noResultLost {front : List Fields} {earlier later : Fields}
    (versions_eq : s.versions = front ++ [later]) (membership : earlier ∈ front)
    (lost : ¬ Kept s.documentID earlier later) : ¬ NoResultLost s := by
  intro ordered
  rw [NoResultLost, versions_eq] at ordered
  exact lost ((List.pairwise_append.mp ordered).2.2 earlier membership later
    List.mem_cons_self)

/-- After a finish that overwrites a result not seen, commits alone lose it. -/
theorem Finishing.exists_lost (consistent : Consistent created s) {device : ι} {a b : Int}
    {screen : MatchViewController} {shown : Competition} {table : CompetitionTable}
    {i j : Nat} {data : Fields}
    (finishing : Finishing created s device a b screen shown table i j data)
    (next : Consistent created (s.afterFinish device a b screen shown table i j data))
    (hguard : ¬ KeepsResults s (.finish device a b)) :
    ∃ (commits : List Nat) (final : System ι),
      run? System.step? (s.afterFinish device a b screen shown table i j data)
        (commits.map .commit) = some final ∧ ¬ NoResultLost final := by
  rw [finishing.keepsResults_iff consistent] at hguard
  push Not at hguard
  obtain ⟨recordedIn, hrecordedIn, lost⟩ := hguard
  rcases hrecordedIn with hstored | ⟨write, membership, rfl⟩
  · -- the new write overwrites the stored document
    have hnew : (s.afterFinish device a b screen shown table i j data).inFlight[
        s.inFlight.length]? = some ⟨device, (s.devices device).snapshots,
          ⟨s.documentID, data⟩⟩ :=
      List.getElem?_concat_length
    exact ⟨[s.inFlight.length], _, (run?_singleton _ _).trans (next.commit hnew),
      not_noResultLost rfl (List.mem_of_getLast? hstored) lost⟩
  · -- the write in flight commits first, then the new one overwrites it
    obtain ⟨index, hindex⟩ := List.getElem?_of_mem membership
    have hlt : index < s.inFlight.length := (List.getElem?_eq_some_iff.mp hindex).1
    have hwrite : (s.afterFinish device a b screen shown table i j data).inFlight[index]? =
        some write := by
      rw [← hindex]
      exact List.getElem?_append_left hlt
    have hfirst := next.commit hwrite
    have middle := next.step hfirst
    have herase : (s.afterFinish device a b screen shown table i j data).inFlight.eraseIdx
        index = s.inFlight.eraseIdx index ++
          [⟨device, (s.devices device).snapshots, ⟨s.documentID, data⟩⟩] :=
      List.eraseIdx_append_of_lt_length hlt _
    have hsecond : ((s.afterFinish device a b screen shown table i j data).inFlight.eraseIdx
        index)[(s.inFlight.eraseIdx index).length]? =
          some ⟨device, (s.devices device).snapshots, ⟨s.documentID, data⟩⟩ := by
      rw [herase]
      exact List.getElem?_concat_length
    have hrest := (run?_singleton _ _).trans (middle.commit hsecond)
    exact ⟨[index, (s.inFlight.eraseIdx index).length], _,
      run?_cons_eq_some_iff.mpr ⟨_, hfirst, hrest⟩,
      not_noResultLost rfl (List.mem_append_right _ List.mem_cons_self) lost⟩

/-- After a step that does not meet the guard, commits alone lose a result. -/
theorem Consistent.exists_lost (consistent : Consistent created s) {action : Action ι}
    (hstep : s.step? action = some t) (hguard : ¬ KeepsResults s action) :
    ∃ (commits : List Nat) (final : System ι),
      run? System.step? t (commits.map .commit) = some final ∧ ¬ NoResultLost final := by
  have next := consistent.step hstep
  cases consistent.stepped hstep with
  | choose | fail | deliver => exact absurd trivial hguard
  | finish finishing => exact finishing.exists_lost consistent next hguard
  | @commit index write hwrite =>
      unfold KeepsResults at hguard
      push Not at hguard
      obtain ⟨committed, position, older, hcommitted, hposition, holder, lost⟩ := hguard
      rw [hwrite] at hcommitted
      cases hcommitted
      have hremaining : (s.inFlight.eraseIdx index)[position]? = some older := by
        rw [List.getElem?_eraseIdx_of_lt hposition, holder]
      exact ⟨[position], _, (run?_singleton _ _).trans (next.commit hremaining),
        not_noResultLost rfl (List.mem_append_right _ List.mem_cons_self) lost⟩

omit [DecidableEq ι] in
theorem StartsWith.ordered (starts : StartsWith created s) : Ordered s := by
  obtain ⟨data, _, _, _, _, _, _, _, hs⟩ := starts.initial
  rw [hs]
  exact List.pairwise_singleton _ data

omit [DecidableEq ι] in
/-- Where no table held records a result, any finish meets the guard. -/
theorem keepsResults_of_unplayed
    (unplayed : Everywhere (fun table => (∀ i j, ¬ table.isDone i j) ∧
      table.isCompetitionFinished = false) s) (device : ι) (a b : Int) :
    KeepsResults s (.finish device a b) := by
  intro screen shown copy data recorded _ _ _ hdata hrecorded
  have held : Holds s recorded := by
    rcases hdata with hstored | ⟨write, membership, rfl⟩
    · exact .version (List.mem_of_getLast? hstored) hrecorded
    · exact .inFlight membership hrecorded
  obtain ⟨hopen, hflag⟩ := unplayed recorded held
  refine ⟨?_, ?_, ?_⟩
  · intro played found done
    exact absurd (isDone_of_match found done) (hopen _ _)
  · intro k l played _ _ found done
    exact absurd (isDone_of_match found done) (hopen k l)
  · rw [hflag]
    intro hfalse
    cases hfalse

omit [DecidableEq ι] in
theorem StartsWith.unplayed (starts : StartsWith created s) :
    Everywhere (fun table => (∀ i j, ¬ table.isDone i j) ∧
      table.isCompetitionFinished = false) s := by
  intro table held
  obtain ⟨new, hnew, rfl⟩ := starts.holds held
  refine ⟨fun i j => ?_, ?_⟩
  · rw [isDone_withoutDocId]
    exact not_isDone_init hnew i j
  · exact (not_started_init hnew).2

/--
In a run all of whose finishes are tapped on devices that show what they
overwrite, and all of whose commits keep the older writes in flight, no
committed version ever loses a result or the finished flag of an earlier one;
and after any other finish or commit of any run, commits alone lose one.
-/
theorem noResultLost_throughout {initial : System ι} {actions : List (Action ι)}
    (starts : StartsWith created initial) :
    (Along System.step? KeepsResults initial actions →
      Throughout System.step? NoResultLost initial actions) ∧
    ∀ before action after, run? System.step? initial actions = some before →
      before.step? action = some after → ¬ KeepsResults before action →
      ∃ (commits : List Nat) (final : System ι),
        run? System.step? after (commits.map .commit) = some final ∧
          ¬ NoResultLost final := by
  constructor
  · intro guarded
    have hthroughout : Throughout System.step?
        (fun s => Consistent created s ∧ Ordered s) initial actions :=
      throughout_of_along
        (fun holds guard hstep => ⟨holds.1.step hstep, holds.2.step holds.1 guard hstep⟩)
        ⟨starts.consistent, starts.ordered⟩ guarded
    exact hthroughout.imp fun holds => holds.2.noResultLost
  · intro before action after hrun hstep hguard
    exact (starts.consistent_of_run hrun).exists_lost hstep hguard

/-- One device finishes a match, and another receives the committed version. -/
theorem noResultLost_throughout_two_devices :
    (run? System.step? (opened Bool [.anna, .boris, .vera])
      [.choose true 0 1, .finish true 1 0, .commit 0, .deliver false 1]).isSome ∧
    Throughout System.step? NoResultLost (opened Bool [.anna, .boris, .vera])
      [.choose true 0 1, .finish true 1 0, .commit 0, .deliver false 1] := by
  have starts := startsWith_three Bool
  refine ⟨by decide +kernel, (noResultLost_throughout starts).1 ?_⟩
  intro chosen hchoose
  have hunplayed := (starts.consistent.stepped hchoose).everywhere starts.unplayed
    fun _ _ _ _ _ _ _ _ _ hfinish => by cases hfinish
  refine ⟨trivial, fun finished _ => ⟨keepsResults_of_unplayed hunplayed true 1 0, ?_⟩⟩
  intro committed _
  refine ⟨?_, fun _ _ => ⟨trivial, trivial⟩⟩
  intro _ _ _ _ hbefore
  exact absurd hbefore (Nat.not_lt_zero _)

/-- A device that has opened one match at the start finishes it after another
device has finished the whole competition. -/
theorem stale_finish_loses_results :
    StartsWith (cup [.anna, .boris, .vera]) (opened Bool [.anna, .boris, .vera]) ∧
    ∃ final earlier later old new,
      run? System.step? (opened Bool [.anna, .boris, .vera])
        [.choose false 0 2, .choose true 0 1, .finish true 1 0, .choose true 0 2,
         .finish true 1 0, .choose true 1 2, .finish true 1 0, .finish false 0 1,
         .commit 0, .commit 0, .commit 0, .commit 0] = some final ∧
      final.versions[3]? = some earlier ∧ final.versions[4]? = some later ∧
      HoldsIn final.documentID earlier old ∧ HoldsIn final.documentID later new ∧
      old.isCompetitionFinished = true ∧ new.isCompetitionFinished = false ∧
      old.isDone 0 1 ∧ ¬ new.isDone 0 1 ∧ ¬ NoResultLost final := by
  have hcheck : ((run? System.step? (opened Bool [.anna, .boris, .vera])
      [.choose false 0 2, .choose true 0 1, .finish true 1 0, .choose true 0 2,
       .finish true 1 0, .choose true 1 2, .finish true 1 0, .finish false 0 1,
       .commit 0, .commit 0, .commit 0, .commit 0]).bind fun final =>
        final.versions[3]?.bind fun earlier => final.versions[4]?.bind fun later =>
          (Database.decodeCompetition ⟨final.documentID, earlier⟩).bind fun first =>
            (Database.decodeCompetition ⟨final.documentID, later⟩).bind fun second =>
              first.competitionTable.bind fun old =>
                second.competitionTable.map fun new => (old, new)).any (fun found =>
        found.1.isCompetitionFinished = true ∧ found.2.isCompetitionFinished = false ∧
        found.1.isDone 0 1 ∧ ¬ found.2.isDone 0 1) = true := by
    decide +kernel
  obtain ⟨⟨old, new⟩, hfound, hfacts⟩ := (Option.any_eq_true _ _).mp hcheck
  obtain ⟨final, hfinal, hrest⟩ := Option.bind_eq_some_iff.mp hfound
  obtain ⟨earlier, hearlier, hrest⟩ := Option.bind_eq_some_iff.mp hrest
  obtain ⟨later, hlater, hrest⟩ := Option.bind_eq_some_iff.mp hrest
  obtain ⟨first, hfirst, hrest⟩ := Option.bind_eq_some_iff.mp hrest
  obtain ⟨second, hsecond, hrest⟩ := Option.bind_eq_some_iff.mp hrest
  obtain ⟨_, hold, hrest⟩ := Option.bind_eq_some_iff.mp hrest
  obtain ⟨_, hnew, hpair⟩ := Option.map_eq_some_iff.mp hrest
  cases hpair
  obtain ⟨hflag, hlost, hdone, hopen⟩ := of_decide_eq_true hfacts
  refine ⟨startsWith_three Bool, final, earlier, later, old, new, hfinal, hearlier, hlater,
    ⟨first, hfirst, hold⟩, ⟨second, hsecond, hnew⟩, hflag, hlost, hdone, hopen, ?_⟩
  intro kept
  have hkept := List.pairwise_iff_getElem.mp kept 3 4
    (List.getElem?_eq_some_iff.mp hearlier).1 (List.getElem?_eq_some_iff.mp hlater).1
    (by decide)
  rw [(List.getElem?_eq_some_iff.mp hearlier).2,
    (List.getElem?_eq_some_iff.mp hlater).2] at hkept
  have hfinished := (hkept old new ⟨first, hfirst, hold⟩ ⟨second, hsecond, hnew⟩).finished
    hflag
  rw [hlost] at hfinished
  cases hfinished

end Shared

end AnyCompetition
