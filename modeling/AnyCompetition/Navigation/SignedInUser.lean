import AnyCompetition.Controllers.AddCompetition
import AnyCompetition.Database.Friends

/-!
# The signed-in user on two screens

The list of competitions and the profile each ask a database of their own for the
signed-in user.  A response goes to the completion, a snapshot to the relay; the list
listens to the relay only and the profile to the completion only.  Nothing reaches the
list, and the profile keeps up as long as no snapshot differs from what it has.
-/

namespace AnyCompetition.Navigation

open GuardedRun Database

/-- What one event of a database hands out. -/
structure Handed where
  /-- The calls of the completion. -/
  completion : List User := []
  /-- The values accepted by the relay `userDatabase`. -/
  userDatabase : List User := []

namespace Handed

/-- A response to `getUserData`; the relay is left out. -/
def getUserData (uid : String) (documents : List Document) : Except Trap Handed := do
  let completion ← Database.getUserData uid documents
  return { completion }

/-- A snapshot of a listener of `addListenerToUser`. -/
def addListenerToUser (document : Document) : Handed :=
  { userDatabase := (decodeUser document).toList }

/-- The users handed out, in order. -/
def users (handed : Handed) : List User :=
  handed.completion ++ handed.userDatabase

end Handed

/-! ## The two controllers -/

structure CompetitionsViewController where
  user : Option User := none

namespace CompetitionsViewController

/-- The completion of `requestUserData` does nothing. -/
def requestUserData (screen : CompetitionsViewController) (_ : User) :
    CompetitionsViewController :=
  screen

/-- The subscription to `userDatabase`. -/
def addObserverToUserDatabase (_ : CompetitionsViewController) (userData : User) :
    CompetitionsViewController :=
  { user := some userData }

def receive (screen : CompetitionsViewController) (handed : Handed) :
    CompetitionsViewController :=
  handed.userDatabase.foldl addObserverToUserDatabase
    (handed.completion.foldl requestUserData screen)

end CompetitionsViewController

structure ProfileViewController where
  hostUser : Option User := none
  /-- The documents of `addListenerToUser`. -/
  listeners : List String := []

namespace ProfileViewController

/-- `didSet` adds one more listener. -/
def setHostUser (screen : ProfileViewController) (hostUser : User) : ProfileViewController :=
  { hostUser := some hostUser
    listeners := screen.listeners ++ hostUser.docId.toList }

/-- `viewDidLoad` does not subscribe to the relay. -/
def receive (screen : ProfileViewController) (handed : Handed) : ProfileViewController :=
  handed.completion.foldl setHostUser screen

end ProfileViewController

/-! ## Deliveries -/

/-- The two controllers, and the users last delivered to their databases. -/
structure SignedInApp where
  uid : String
  competitions : CompetitionsViewController := {}
  profile : ProfileViewController := {}
  deliveredToCompetitions : Option User := none
  deliveredToProfile : Option User := none

namespace SignedInApp

inductive Action where
  /-- A response to the list of competitions. -/
  | competitionsResponse (documents : List Document)
  /-- A response to the profile. -/
  | profileResponse (documents : List Document)
  /-- A snapshot of a listener of the profile. -/
  | profileSnapshot (document : Document)

/-- A response has at least one user of this id that decodes. -/
def response? (uid : String) (documents : List Document) : Option Handed :=
  match Handed.getUserData uid documents with
  | .error _ => none
  | .ok handed => if handed.completion = [] then none else some handed

def step? (s : SignedInApp) : Action → Option SignedInApp
  | .competitionsResponse documents =>
      (response? s.uid documents).map fun handed =>
        { s with
          competitions := s.competitions.receive handed
          deliveredToCompetitions := handed.users.getLast?.or s.deliveredToCompetitions }
  | .profileResponse documents =>
      (response? s.uid documents).map fun handed =>
        { s with
          profile := s.profile.receive handed
          deliveredToProfile := handed.users.getLast?.or s.deliveredToProfile }
  | .profileSnapshot document =>
      if document.documentID ∈ s.profile.listeners then
        let handed := Handed.addListenerToUser document
        some { s with
          profile := s.profile.receive handed
          deliveredToProfile := handed.users.getLast?.or s.deliveredToProfile }
      else none

variable {s t : SignedInApp}

/-- The document of the user with these friends. -/
def stored (friends : Option (List String)) : Document :=
  ⟨"d1", addUser { User.anna with friends }⟩

end SignedInApp

end AnyCompetition.Navigation
