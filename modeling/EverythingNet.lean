import EverythingNet.Lib.Outcome
import EverythingNet.Lib.Bytes
import EverythingNet.Lib.Block
import EverythingNet.Host.Swap
import EverythingNet.Host.Target
import EverythingNet.Node.Accessor
import EverythingNet.Node.Shape
import EverythingNet.Node.Align
import EverythingNet.Node.Convert
import EverythingNet.Node.Entry
import EverythingNet.Node.NodeList
import EverythingNet.Net.Gate
import EverythingNet.Node.Discover
import EverythingNet.Node.Init
import EverythingNet.Node.Invariant
import EverythingNet.Node.Locality
import EverythingNet.Node.Walks
import EverythingNet.Node.Swapped
import EverythingNet.Net.Handle
import EverythingNet.Net.Drain
import EverythingNet.Net.Run
import EverythingNet.Net.Reach
import EverythingNet.Net.Accepted
import EverythingNet.Net.Converted
import EverythingNet.Net.Capacity
import EverythingNet.Net.Mesh
import EverythingNet.Net.Transparent
import EverythingNet.Net.Attribution
import EverythingNet.Net.Ifaces
import EverythingNet.Plat.Timers
import EverythingNet.Plat.CpuInfo
import EverythingNet.Plat.Device
import EverythingNet.Plat.Osx
import EverythingNet.Plat.GatherInfo
import EverythingNet.Lib.StartsWith
import EverythingNet.Plat.CpuName
import EverythingNet.Plat.Gfx
import EverythingNet.Plat.LinuxStart
import EverythingNet.App.Fleet
import EverythingNet.Libc.Move
import EverythingNet.Libc.Search
import EverythingNet.Lib.Hearsay
import EverythingNet.Net.Spread
import EverythingNet.App.Loop
import EverythingNet.Lib.Numeral
import EverythingNet.Libc.Printf
import EverythingNet.Libc.PrintfText
import EverythingNet.Libc.Layout
import EverythingNet.Libc.Directive
import EverythingNet.Libc.Integer
import EverythingNet.Libc.Typed
import EverythingNet.Libc.Write
import EverythingNet.App.Console
import EverythingNet.App.Report
import EverythingNet.App.Output
import EverythingNet.App.Dump
