import Post2Usenet.Lib.Collect
import Post2Usenet.Lib.Machine
import Post2Usenet.Lib.Potential
import Post2Usenet.Lib.Rounding
import Post2Usenet.Lib.Simulation
import Post2Usenet.Lib.Slices
import Post2Usenet.Lib.Tally
import Post2Usenet.Lib.Xml
import Post2Usenet.Lib.XmlDocument
import Post2Usenet.Basic
import Post2Usenet.Connection
import Post2Usenet.DummyServer
import Post2Usenet.Main
import Post2Usenet.Newsreader
import Post2Usenet.Nntp
import Post2Usenet.Operations
import Post2Usenet.Overlap
import Post2Usenet.Poster
import Post2Usenet.Posting
import Post2Usenet.ProgramConfig
import Post2Usenet.Reactor
import Post2Usenet.Recovery
import Post2Usenet.Session
import Post2Usenet.Startup
import Post2Usenet.Usenet
import Post2Usenet.YencDecoder
import Post2Usenet.Yencgenerator
import Post2Usenet.Proofs.ArticleFraming
import Post2Usenet.Proofs.Backlogs
import Post2Usenet.Proofs.Completions
import Post2Usenet.Proofs.ConnectionSteps
import Post2Usenet.Proofs.Deadlocks
import Post2Usenet.Proofs.Downloads
import Post2Usenet.Proofs.DummyTalks
import Post2Usenet.Proofs.Dumps
import Post2Usenet.Proofs.Exchanges
import Post2Usenet.Proofs.HeaderFields
import Post2Usenet.Proofs.Logins
import Post2Usenet.Proofs.MainRun
import Post2Usenet.Proofs.MessageIds
import Post2Usenet.Proofs.NullBytes
import Post2Usenet.Proofs.NzbAttributes
import Post2Usenet.Proofs.NzbDocument
import Post2Usenet.Proofs.NzbSoundness
import Post2Usenet.Proofs.OperationOrder
import Post2Usenet.Proofs.Overlaps
import Post2Usenet.Proofs.PieceArticles
import Post2Usenet.Proofs.PoolAccounting
import Post2Usenet.Proofs.PoolAttempts
import Post2Usenet.Proofs.PoolBound
import Post2Usenet.Proofs.PoolCommands
import Post2Usenet.Proofs.PoolEfforts
import Post2Usenet.Proofs.PoolEnergy
import Post2Usenet.Proofs.PoolLeftovers
import Post2Usenet.Proofs.PoolLifetimes
import Post2Usenet.Proofs.PoolLists
import Post2Usenet.Proofs.PoolLoads
import Post2Usenet.Proofs.PoolOwnership
import Post2Usenet.Proofs.PoolProgress
import Post2Usenet.Proofs.PoolRequests
import Post2Usenet.Proofs.PoolSockets
import Post2Usenet.Proofs.PoolTrace
import Post2Usenet.Proofs.PoolWaits
import Post2Usenet.Proofs.PoolWork
import Post2Usenet.Proofs.Posters
import Post2Usenet.Proofs.ReactorSteps
import Post2Usenet.Proofs.Recoveries
import Post2Usenet.Proofs.Rehearsals
import Post2Usenet.Proofs.Retries
import Post2Usenet.Proofs.SessionSync
import Post2Usenet.Proofs.Settings
import Post2Usenet.Proofs.Startups
import Post2Usenet.Proofs.Terminations
import Post2Usenet.Proofs.Timers
import Post2Usenet.Proofs.Validation
import Post2Usenet.Proofs.YencBlanks
import Post2Usenet.Proofs.YencGrammar
import Post2Usenet.Proofs.YencHistory
import Post2Usenet.Proofs.YencLines
import Post2Usenet.Proofs.YencRoundTrip
