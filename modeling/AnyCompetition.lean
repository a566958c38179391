import AnyCompetition.Models.Standings
import AnyCompetition.Models.UserHash
import AnyCompetition.Database.UserLookup
import AnyCompetition.Controllers.NewCompetition
import AnyCompetition.Controllers.CreationDate
import AnyCompetition.Controllers.ScoreFields
import AnyCompetition.Controllers.UserSearch
import AnyCompetition.Profile.FriendRequests
import AnyCompetition.Profile.RequestRuns
import AnyCompetition.Profile.AcceptedRequest
import AnyCompetition.Profile.NewFriends
import AnyCompetition.Profile.PendingRequests
import AnyCompetition.Shared.FinishedGames
import AnyCompetition.Shared.PointTotals
import AnyCompetition.Shared.LostResults
import AnyCompetition.Shared.FailedWrites
import AnyCompetition.Shared.SerialRuns
import AnyCompetition.Shared.Completion
import AnyCompetition.Views.DrawnTable
import AnyCompetition.Navigation.OwnCompetition
import AnyCompetition.Navigation.CompetitionList
import AnyCompetition.Navigation.SignedInUser
import AnyCompetition.Navigation.TabBar
import AnyCompetition.Navigation.Session
import AnyCompetition.Navigation.ClubResults
import AnyCompetition.Navigation.ClubDocuments
import AnyCompetition.Navigation.SharedRuns
