import TaiwanSpots.Runs
import TaiwanSpots.DocumentPath
import TaiwanSpots.DocumentStore
import TaiwanSpots.Spot
import TaiwanSpots.API
import TaiwanSpots.Rebuild
import TaiwanSpots.RebuildOutcome
import TaiwanSpots.RebuildFailures
import TaiwanSpots.OverlappingRebuilds
import TaiwanSpots.RebuildPhases
import TaiwanSpots.StoredSpots
import TaiwanSpots.Pages
import TaiwanSpots.FavoriteButton
import TaiwanSpots.FavoriteRaces
import TaiwanSpots.FavoriteHearts
import TaiwanSpots.FavoriteArrays
import TaiwanSpots.CityPage
import TaiwanSpots.SearchPage
import TaiwanSpots.FeedToScreen
import TaiwanSpots.ProfileSession
import TaiwanSpots.Registration
import TaiwanSpots.FavoritesPage
import TaiwanSpots.LoadingIndicator
import TaiwanSpots.Screens
import TaiwanSpots.ItemRanges
import TaiwanSpots.AccountSwitch
import TaiwanSpots.RegularExpressions
import TaiwanSpots.EmailFormat
import TaiwanSpots.Client
import TaiwanSpots.PasswordWrites
import TaiwanSpots.ProfileAccount
import TaiwanSpots.RegistrationWizard
import TaiwanSpots.ImportedFeeds
import TaiwanSpots.CityIndex
import TaiwanSpots.LoadedSpots
import TaiwanSpots.FavoriteRemovals
import TaiwanSpots.OverlappingIndicators
import TaiwanSpots.CityTiles
import TaiwanSpots.ProfileCells
import TaiwanSpots.SpotPanel
import TaiwanSpots.ManyRebuilds
import TaiwanSpots.Separation
import TaiwanSpots.Descent
import TaiwanSpots.RebuildTermination
import TaiwanSpots.RebuildRecovery
import TaiwanSpots.ClientSteps
import TaiwanSpots.WholeSystem
import TaiwanSpots.Numerals
import TaiwanSpots.AdminButton
import TaiwanSpots.MapPage
import TaiwanSpots.MapListing
import TaiwanSpots.Journal
import TaiwanSpots.IssuedWrites
import TaiwanSpots.AvatarUploads
import TaiwanSpots.AuthGate
import TaiwanSpots.ShownSpots
import TaiwanSpots.FavoritesAfterRebuild
import TaiwanSpots.Administration
import TaiwanSpots.OtherAccounts
import TaiwanSpots.StoredFavorites
import TaiwanSpots.Quiescence
import TaiwanSpots.ScreensAfterRebuild
