import TxLcn.Lib.Exec
import TxLcn.Lib.KeyedTable
import TxLcn.Lib.Lease
import TxLcn.Lib.Long
import TxLcn.Lib.Pattern
import TxLcn.Lib.Prog
import TxLcn.Lib.Projection
import TxLcn.Lib.KeyedProg
import TxLcn.Lib.Refinement
import TxLcn.Lib.Session
import TxLcn.Lib.Transducer
import TxLcn.Lib.SqlText
import TxLcn.Lib.SqlPlaceholder
import TxLcn.Lib.SqlLiteral
import TxLcn.Lib.SqlStatement
import TxLcn.Lib.Verdict
import TxLcn.Protocol.Message
import TxLcn.Protocol.LockContext
import TxLcn.Protocol.Exchange
import TxLcn.Protocol.ConnectionService
import TxLcn.Protocol.Reporter
import TxLcn.Tm.Snowflake
import TxLcn.Tm.Repository
import TxLcn.Tm.Event
import TxLcn.Tm.Deployment
import TxLcn.Tm.TmNode
import TxLcn.Tm.NodeInitiator
import TxLcn.Tm.TmNodeServerRunner
import TxLcn.Tm.LoadBalancer
import TxLcn.Tm.Forwarding
import TxLcn.Tm.Reporter
import TxLcn.Tc.Identity
import TxLcn.Tc.Reporter
import TxLcn.Tc.Participant
import TxLcn.Tc.Commitment
import TxLcn.Tc.Jdbc
import TxLcn.Tc.LogExecutor
import TxLcn.Tc.Aspect
import TxLcn.Tc.Invocation
import TxLcn.Tc.Captures
import TxLcn.Tc.Logged
import TxLcn.Tc.SqlAnalyse
import TxLcn.Tc.Statements
import TxLcn.Tc.Value
import TxLcn.Tc.Access
import TxLcn.Tc.Proxied
import TxLcn.Tc.Databases
import TxLcn.Tc.Groups
import TxLcn.Tc.TxConfig
import TxLcn.Tc.TmServerRunner
import TxLcn.Proof.SnowflakeOrder
import TxLcn.Proof.StoreLinear
import TxLcn.Proof.GroupsApart
import TxLcn.Proof.WriteOnce
import TxLcn.Proof.JoinBound
import TxLcn.Proof.Reach
import TxLcn.Proof.DistinctIds
import TxLcn.Proof.Reply
import TxLcn.Proof.Decision
import TxLcn.Proof.CrossDelivery
import TxLcn.Proof.InFlight
import TxLcn.Proof.Agreement
import TxLcn.Proof.CutOff
import TxLcn.Proof.Stages
import TxLcn.Proof.FaultFree
import TxLcn.Proof.ManyGroups
import TxLcn.Proof.Nesting
import TxLcn.Proof.ExitPaths
import TxLcn.Proof.CallerSees
import TxLcn.Proof.Captured
import TxLcn.Proof.Durability
import TxLcn.Proof.Analysis
import TxLcn.Proof.LogRows
import TxLcn.Proof.CrashPoints
import TxLcn.Proof.Atomic
import TxLcn.Proof.NeedCommit
import TxLcn.Proof.FailedJoin
import TxLcn.Proof.Plays
import TxLcn.Proof.Isolation
import TxLcn.Proof.CallTree
import TxLcn.Proof.LockPool
import TxLcn.Proof.LiveConnection
import TxLcn.Proof.CommitDecision
import TxLcn.Proof.SingleTm
import TxLcn.Proof.SnowflakeIdentity
import TxLcn.Proof.AcceptedRecorded
import TxLcn.Proof.KeyList
import TxLcn.Proof.AffectedRows
import TxLcn.Proof.Forwarded
import TxLcn.Proof.SingleExecution
import TxLcn.Proof.FailedSave
import TxLcn.Proof.OneRow
import TxLcn.Proof.Alignment
import TxLcn.Proof.LeastLoaded
import TxLcn.Proof.SnowflakeDecode
import TxLcn.Proof.IdService
import TxLcn.Proof.FirstIdentity
import TxLcn.Proof.Registered
import TxLcn.Proof.Discovery
import TxLcn.Proof.Forgotten
import TxLcn.Proof.Meet
import TxLcn.Proof.TmAddresses
import TxLcn.Proof.LiteralKeys
import TxLcn.Proof.PreparedText
import TxLcn.Proof.Restriction
import TxLcn.Proof.LogTable
import TxLcn.Proof.DatabaseAccess
