import NrStack.Library.BitFields
import NrStack.Library.Bits
import NrStack.Library.Block
import NrStack.Library.ByteBits
import NrStack.Library.Chain
import NrStack.Library.Compare
import NrStack.Library.Crc
import NrStack.Library.Fuel
import NrStack.Library.Group
import NrStack.Library.Halving
import NrStack.Library.Insert
import NrStack.Library.Keyed
import NrStack.Library.Lfsr
import NrStack.Library.Marks
import NrStack.Library.Permutation
import NrStack.Library.Pieces
import NrStack.Library.Probe
import NrStack.Library.RedBlack
import NrStack.Library.RedBlackFixup
import NrStack.Library.RedBlackOps
import NrStack.Library.Ring
import NrStack.Library.Run
import NrStack.Library.Serial
import NrStack.Library.Tally
import NrStack.Library.Tiling
import NrStack.Library.Wire
import NrStack.Library.WorkPool
import NrStack.Common.Hashtable
import NrStack.Common.HashtableRun
import NrStack.Common.SeqArrErase
import NrStack.Common.TaskAns
import NrStack.Common.TaskRing
import NrStack.Common.ThreadPool
import NrStack.Common.ThreadPoolStop
import NrStack.Rlc.Am
import NrStack.Rlc.AmAckSpec
import NrStack.Rlc.AmControl
import NrStack.Rlc.AmControlAtomic
import NrStack.Rlc.AmControlParse
import NrStack.Rlc.AmEntity
import NrStack.Rlc.AmPdu
import NrStack.Rlc.AmReceive
import NrStack.Rlc.AmRxAccounting
import NrStack.Rlc.AmRxInvariant
import NrStack.Rlc.AmRxRun
import NrStack.Rlc.AmScan
import NrStack.Rlc.AmScanSpec
import NrStack.Rlc.AmSegmentation
import NrStack.Rlc.AmStatus
import NrStack.Rlc.AmStatusSize
import NrStack.Rlc.AmTransmit
import NrStack.Rlc.AmTxAccounting
import NrStack.Rlc.AmTxAck
import NrStack.Rlc.AmTxInvariant
import NrStack.Rlc.AmTxOrder
import NrStack.Rlc.AmTxRun
import NrStack.Rlc.AmTxSend
import NrStack.Rlc.FirstTx
import NrStack.Rlc.LcidMap
import NrStack.Rlc.Pdu
import NrStack.Rlc.Reassembly
import NrStack.Rlc.ReassemblyData
import NrStack.Rlc.ReassemblySafety
import NrStack.Rlc.Reconfigure
import NrStack.Rlc.RxList
import NrStack.Rlc.Sdu
import NrStack.Rlc.SduHeap
import NrStack.Rlc.SegmentPool
import NrStack.Rlc.Um
import NrStack.Rlc.UmAccounting
import NrStack.Rlc.UmChannel
import NrStack.Rlc.UmDelivery
import NrStack.Rlc.UmPdu
import NrStack.Rlc.UmRxInvariant
import NrStack.Rlc.UmSegmentation
import NrStack.Rlc.UmTimer
import NrStack.Rlc.ZeroGrant
import NrStack.Pdcp.Channel
import NrStack.Pdcp.Count
import NrStack.Pdcp.CountWindow
import NrStack.Pdcp.Entity
import NrStack.Pdcp.Keystream
import NrStack.Pdcp.Reconfigure
import NrStack.Pdcp.Reordering
import NrStack.Pdcp.RlcDataReqQueue
import NrStack.Pdcp.RoundTrip
import NrStack.Pdcp.RxSize
import NrStack.Sdap.Entity
import NrStack.Sdap.EntityList
import NrStack.Sdap.Header
import NrStack.Sdap.Release
import NrStack.Nas.Decipher
import NrStack.Nas.DecoderBounds
import NrStack.Nas.Generators
import NrStack.Nas.Headers
import NrStack.Nas.IdentityRoundTrip
import NrStack.Nas.Messages
import NrStack.Nas.MobileIdentity
import NrStack.Nas.Octets
import NrStack.Nas.RegistrationAccept
import NrStack.Nas.Replay
import NrStack.Nas.Security
import NrStack.Nas.ServiceDownlink
import NrStack.Nas.ServiceMessages
import NrStack.Nas.ServiceRequest
import NrStack.Nas.ServiceRoundTrip
import NrStack.Nas.Uplink
import NrStack.Nas.UplinkCount
import NrStack.Nas.UplinkOutcome
import NrStack.Nas.UplinkSize
import NrStack.Coding.CheckCrc
import NrStack.Coding.Crc
import NrStack.Coding.GoldCache
import NrStack.Coding.GoldSequence
import NrStack.Coding.OutputBits
import NrStack.Coding.PolarInfoBits
import NrStack.Coding.PolarLength
import NrStack.Coding.PolarPattern
import NrStack.Coding.PolarSequence
import NrStack.Coding.ReverseBits
import NrStack.Coding.Scrambling
import NrStack.Coding.Segmentation
import NrStack.Mac.BufferStatus
import NrStack.Mac.CceInterleaver
import NrStack.Mac.ComputeTbs
import NrStack.Mac.DlFeedback
import NrStack.Mac.DlFeedbackRun
import NrStack.Mac.DlHarq
import NrStack.Mac.DlHarqOps
import NrStack.Mac.DlMacPdu
import NrStack.Mac.DlMacPduRun
import NrStack.Mac.FindNbRb
import NrStack.Mac.Harq
import NrStack.Mac.HarqPartition
import NrStack.Mac.HarqRetx
import NrStack.Mac.NrList
import NrStack.Mac.Pdcch
import NrStack.Mac.RandomAccessResponse
import NrStack.Mac.Riv
import NrStack.Mac.TddSlots
import NrStack.Mac.UeListOps
import NrStack.Mac.UeListRun
import NrStack.Mac.UeLists
import NrStack.Mac.UeTimers
import NrStack.Mac.UlBytes
import NrStack.Mac.UlHarq
import NrStack.Mac.UlMacPdu
import NrStack.Mac.UlMacPduRun
import NrStack.Flexric.AperiodicEvents
import NrStack.Flexric.AssocHtOpen
import NrStack.Flexric.AssocHtOpenRun
import NrStack.Flexric.AssocRbDelete
import NrStack.Flexric.AssocRbExtract
import NrStack.Flexric.AssocRbInsert
import NrStack.Flexric.AssocRbRepr
import NrStack.Flexric.AssocRbRotate
import NrStack.Flexric.AssocRbRun
import NrStack.Flexric.AssocRbTree
import NrStack.Flexric.BiMap
import NrStack.Flexric.Conversions
import NrStack.Flexric.E2NodeId
import NrStack.Flexric.Iapp
import NrStack.Flexric.IappRouting
import NrStack.Flexric.IappRun
import NrStack.Flexric.IndEvent
import NrStack.Flexric.PendingEvents
import NrStack.Flexric.PubSub
import NrStack.Flexric.RicGenId
import NrStack.Flexric.SeqArr
import NrStack.Flexric.SeqRing
import NrStack.Flexric.SliceCodec
import NrStack.Flexric.SliceSm
import NrStack.Flexric.SmCodecs
import NrStack.Flexric.SyncUi
import NrStack.Flexric.TaskManager
import NrStack.Flexric.TaskManagerRun
import NrStack.Flexric.TcCodec
import NrStack.Flexric.TcSm
import NrStack.Gtpu.Receiver
import NrStack.Gtpu.ReceiverSafety
import NrStack.Gtpu.RoundTrip
import NrStack.Gtpu.TunnelOps
import NrStack.Gtpu.TunnelRun
import NrStack.Gtpu.Tunnels
import NrStack.Nfapi.P7Link
import NrStack.Nfapi.P7LinkRun
import NrStack.Nfapi.P7Message
import NrStack.Nfapi.P7Reassembly
