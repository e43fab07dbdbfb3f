import CcBackend.Schema
import CcBackend.Repository
import CcBackend.Api
import CcBackend.System
import CcBackend.Invariant
import CcBackend.Progress
import CcBackend.Query
import CcBackend.Duplicates
import CcBackend.StopJob
import CcBackend.Monitoring
import CcBackend.Tags
import CcBackend.Routes
import CcBackend.Lifecycle
import CcBackend.TagRuns
import CcBackend.Durability
