import RymgaLoader.Lib.BigEndian
import RymgaLoader.Lib.Unicode
import RymgaLoader.Lib.AsciiTransparent
import RymgaLoader.Lib.ExactReader
import RymgaLoader.Lib.Scan
import RymgaLoader.Lib.Base64
import RymgaLoader.Lib.Program
import RymgaLoader.Lib.Interleaving
import RymgaLoader.Lib.WindowsArguments
import RymgaLoader.Launcher.CommandLine
import RymgaLoader.Protocol.Fields
import RymgaLoader.Protocol.Layout
import RymgaLoader.Protocol.Wire
import RymgaLoader.Protocol.WireValidators
import RymgaLoader.Protocol.WireStreams
import RymgaLoader.Protocol.SessionManifest
import RymgaLoader.Protocol.SessionRequest
import RymgaLoader.Protocol.Canonical
import RymgaLoader.Native.Text
import RymgaLoader.Native.Manifest
import RymgaLoader.Native.Disk
import RymgaLoader.Native.Names
import RymgaLoader.Native.Markers
import RymgaLoader.Native.System
import RymgaLoader.Native.Frames
import RymgaLoader.Native.Platform
import RymgaLoader.Native.Contents
import RymgaLoader.Native.TempDirectory
import RymgaLoader.Native.Buffer
import RymgaLoader.Native.Acquire
import RymgaLoader.Native.RequestEncoding
import RymgaLoader.Native.Download
import RymgaLoader.Native.Acquisition
import RymgaLoader.Native.Guarantees
import RymgaLoader.Native.Runtime
import RymgaLoader.Native.RuntimeRuns
import RymgaLoader.Gateway.Startup
import RymgaLoader.Gateway.Resource
import RymgaLoader.Gateway.Authorization
import RymgaLoader.Gateway.License
import RymgaLoader.Gateway.Outcomes
import RymgaLoader.Gateway.Snapshot
import RymgaLoader.Interop.Codecs
import RymgaLoader.Interop.Session
import RymgaLoader.Interop.ClockWindows
import RymgaLoader.Paper.Bootstrap
import RymgaLoader.Paper.Custody
import RymgaLoader.Paper.Lifecycle
import RymgaLoader.Java.BundledNativeLibrary
import RymgaLoader.Native.Stale
import RymgaLoader.Lib.Hex
import RymgaLoader.Native.PluginMarkers
import RymgaLoader.Native.Plugins
import RymgaLoader.Native.PluginCalls
import RymgaLoader.Native.PluginSweep
import RymgaLoader.Native.PluginPlatforms
import RymgaLoader.Native.Retention
import RymgaLoader.Native.Materialize
import RymgaLoader.Launcher.HexKey
import RymgaLoader.Native.Acl
import RymgaLoader.Native.TextScan
import RymgaLoader.Interop.TextFields
import RymgaLoader.Lib.Json
import RymgaLoader.Gateway.ProviderMessages
import RymgaLoader.Native.Jni
import RymgaLoader.Java.ApplicationConfig
import RymgaLoader.Java.Credentials
import RymgaLoader.Interop.Licenses
import RymgaLoader.Launcher.Arguments
import RymgaLoader.Native.BufferLog
import RymgaLoader.Native.Transcoders
import RymgaLoader.Native.Filenames
import RymgaLoader.Native.WindowsHex
import RymgaLoader.Native.MarkerCodecs
import RymgaLoader.Interop.Agreement
import RymgaLoader.Native.PluginRuns
import RymgaLoader.Launcher.TerminalRuns
import RymgaLoader.Launcher.LicenseInput
import RymgaLoader.Launcher.SessionRuns
import RymgaLoader.Native.OwnerMarkers
