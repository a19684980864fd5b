import Sm8650.HwFence.Fifo
import Sm8650.HwFence.Bookkeeping
import Sm8650.HwFence.MemRegions
import Sm8650.Dsc.Wakeup
import Sm8650.Dsc.Drain
import Sm8650.IpaNat.DeadHandle
import Sm8650.IpaNat.Loss
import Sm8650.IpaNat.Checksum
import Sm8650.IpaNat.Pdn
import Sm8650.Venus.RoundTrip
import Sm8650.Venus.HostileMemory
import Sm8650.Mmrm.Admission
import Sm8650.Mmrm.LevelAdjustment
import Sm8650.Mmrm.CrmVotes
import Sm8650.Synx.MergeRace
import Sm8650.Synx.MergeRollback
import Sm8650.Synx.SignalOnce
import Sm8650.Wlan.NonInline
import Sm8650.Wlan.Within
import Sm8650.Wlan.Stranded
import Sm8650.Wlan.ScanWaiting
import Sm8650.MgmtReo.Duplicates
import Sm8650.Fastrpc.Lifetime
import Sm8650.Kgsl.HfiRoundTrip
import Sm8650.Kgsl.Ringbuffer
import Sm8650.Kgsl.HfiAccess
import Sm8650.Kgsl.Events
import Sm8650.Kgsl.BindRace
import Sm8650.Kgsl.TimelineFences
import Sm8650.Kgsl.TimelineQueries
import Sm8650.Kgsl.SyncObject
import Sm8650.Crm.Bubble
import Sm8650.Crm.Schedule
import Sm8650.Crm.Tables
import Sm8650.IpaNat.Handles
import Sm8650.IpaNat.SramSize
import Sm8650.Cfg.Lifetime
import Sm8650.Rmnet.IngressRace
import Sm8650.Rmnet.ByteStrings
import Sm8650.Crypto.MmieOrder
import Sm8650.Crypto.Pmksa
import Sm8650.Crypto.SuitesAdvertised
import Sm8650.Fltrt.DirectRule
import Sm8650.Wlan.IeCap
import Sm8650.Wlan.VendorIe
import Sm8650.Qdf.IntArrayParse
import Sm8650.Qdf.Ipv6Parse
import Sm8650.Qdf.IniParse
import Sm8650.CamSync.Merge
import Sm8650.MgmtReo.Estimate
import Sm8650.Fastrpc.Packing
