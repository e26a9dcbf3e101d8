import HyperCors.Lib.Polling
import HyperCors.Lib.TokenList
import HyperCors.Http
import HyperCors.HeaderBuf
import HyperCors.Knobs
import HyperCors.Config
import HyperCors.Merge
import HyperCors.MergeTheorems
import HyperCors.Cors
import HyperCors.CorsTheorems
import HyperCors.CacheVary
import HyperCors.Composition
import HyperCors.Credentials
import HyperCors.PreflightArms
import HyperCors.BuilderCalls
import HyperCors.HeaderLists
import HyperCors.OriginList
import HyperCors.Serving
import HyperCors.Concurrency
import HyperCors.Fetch
import HyperCors.FetchTheorems
import HyperCors.Latency
import HyperCors.BuildErrors
import HyperCors.MaxAgeValue
import HyperCors.VaryBuffer
import HyperCors.SharedCaching
import HyperCors.Stacked
import HyperCors.KnobEffects
import HyperCors.Overpolling
