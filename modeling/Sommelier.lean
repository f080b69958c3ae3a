import Sommelier.Proxy.Run
import Sommelier.State.Attachments
import Sommelier.Handler.ShmLayout
import Sommelier.State.HostIdRange
import Sommelier.Handler.DamageCoalescing
import Sommelier.Handler.DamageCoverage
import Sommelier.Objects.BufferDestroy
import Sommelier.Objects.ServerIds
import Sommelier.Objects.ShownBuffers
import Sommelier.Globals.BindAgreement
import Sommelier.Globals.ShmFormatAgreement
import Sommelier.Input.FocusHistory
import Sommelier.Input.FocusProjection
import Sommelier.State.TableCalls
import Sommelier.Input.HostTextEvents
import Sommelier.Input.TextInputs
import Sommelier.Generated.Forwarding
import Sommelier.Proxy.Attribution
import Sommelier.Objects.CommittedDamage
import Sommelier.Objects.FailedCommits
import Sommelier.Objects.SurfaceAgreement
import Sommelier.Generated.Atomicity
import Sommelier.Proxy.Chunking
import Sommelier.Ids.Acts
import Sommelier.Ids.Buffers
import Sommelier.Ids.Input
import Sommelier.Ids.Moves
import Sommelier.Ids.Registry
import Sommelier.Ids.System
import Sommelier.Lib.NumberStream
import Sommelier.Input.PreeditRegion
import Sommelier.Input.DoneSerials
import Sommelier.Input.TextInputAnswers
import Sommelier.Input.EditorCommits
import Sommelier.ControlMessages
import Sommelier.Handler.FeedbackMessages
import Sommelier.Transport
import Sommelier.Input.KeyAcks
import Sommelier.Input.ImeRecovery
import Sommelier.Ids.Acknowledgements
import Sommelier.Ids.Reservation
import Sommelier.Ids.NewIdOrder
import Sommelier.Input.KeymapOwnership
import Sommelier.Objects.DmabufSystem
import Sommelier.Objects.PlaneCustody
import Sommelier.Objects.ParamsProtocol
import Sommelier.Objects.ParamsErrors
import Sommelier.Transactions
import Sommelier.Input.HostKeys
import Sommelier.Input.KeyLedger
import Sommelier.Input.CompositionTranslation
