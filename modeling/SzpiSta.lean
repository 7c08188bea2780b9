import SzpiSta.ExternalCalls
import SzpiSta.Overwriting
import SzpiSta.TransitionPaths
import SzpiSta.Upgrade
import SzpiSta.UpgradeSlot
import SzpiSta.UpgradeImage
import SzpiSta.DownloadCalls
import SzpiSta.HexText
import SzpiSta.HttpDl
import SzpiSta.HttpDlCallback
import SzpiSta.HttpDlFile
import SzpiSta.HttpDlVerified
import SzpiSta.BleRc
import SzpiSta.BleRecovery
import SzpiSta.BleRequest
import SzpiSta.BleShadow
import SzpiSta.BleStop
import SzpiSta.EventLoop
import SzpiSta.EventQueue
import SzpiSta.AutoReboot
import SzpiSta.BleDirected
import SzpiSta.BleInit
import SzpiSta.CStrings
import SzpiSta.HttpDlChecksum
import SzpiSta.JsonLibrary
import SzpiSta.RpcReference
import SzpiSta.RpcSend
import SzpiSta.SdSpeed
import SzpiSta.UpgradeErase
import SzpiSta.WscliRecv
import SzpiSta.BleDelete
import SzpiSta.BleWakeupData
import SzpiSta.FullPaths
import SzpiSta.HeldResources
import SzpiSta.HttpDlResources
import SzpiSta.PollErrors
import SzpiSta.ResourceExits
import SzpiSta.RpcFraming
import SzpiSta.SdSpeedBytes
import SzpiSta.SdSpeedCard
import SzpiSta.UpgradeFallback
import SzpiSta.WscliDescriptors
import SzpiSta.AdvDuration
import SzpiSta.BtCkSleep
import SzpiSta.HttpClient
import SzpiSta.HttpDlProgress
import SzpiSta.BleLink
import SzpiSta.RebootDevice
import SzpiSta.RelayCycle
import SzpiSta.Simulations
import SzpiSta.HidItems
import SzpiSta.HidService
import SzpiSta.KeySenders
import SzpiSta.EventDelay
import SzpiSta.RelaySockets
import SzpiSta.RelayRequests
import SzpiSta.CBuffers
import SzpiSta.Fatfs
import SzpiSta.FatfsListing
import SzpiSta.FatfsBoots
import SzpiSta.DownloadSessions
import SzpiSta.FlashedImage
import SzpiSta.BootMessages
import SzpiSta.RpcMessages
