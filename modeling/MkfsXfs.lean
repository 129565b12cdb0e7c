import MkfsXfs.Geometry.Tiling
import MkfsXfs.Geometry.Defaults
import MkfsXfs.Geometry.LogPlace
import MkfsXfs.Format.Plan
import MkfsXfs.Lib.Extents
import MkfsXfs.Format.FreeSpace
import MkfsXfs.Format.PlanSpec
import MkfsXfs.Format.Partition
import MkfsXfs.Format.PlanOk
import MkfsXfs.Bytes
import MkfsXfs.Crc
import MkfsXfs.Lib.Prog
import MkfsXfs.Device
import MkfsXfs.Log.Reader
import MkfsXfs.Log.Search
import MkfsXfs.Log.Append
import MkfsXfs.Admin.Fs
import MkfsXfs.Admin.Ops
import MkfsXfs.Admin.Open
import MkfsXfs.Admin.Refusals
import MkfsXfs.Admin.Writer
import MkfsXfs.Admin.Clean
import MkfsXfs.Admin.Confined
import MkfsXfs.Geometry.Address
import MkfsXfs.Structs.Ag
import MkfsXfs.Format.Head
import MkfsXfs.Structs.Inode
import MkfsXfs.Format.Counts
import MkfsXfs.Format.Superblock
import MkfsXfs.Inspect.Dump
import MkfsXfs.Inspect.Walk
import MkfsXfs.Format.HeadLayout
import MkfsXfs.Format.HeadRead
import MkfsXfs.Format.RootChunk
import MkfsXfs.Format.Run
import MkfsXfs.Format.InodesFound
import MkfsXfs.Completed
import MkfsXfs.Format.Interrupted
import MkfsXfs.Format.Determined
import MkfsXfs.Admin.ClearedLog
import MkfsXfs.Log.Exact
import MkfsXfs.Crc.Damage
import MkfsXfs.Inspect.Usable
import MkfsXfs.MemDevice
import MkfsXfs.Inspect.TreeWalk
import MkfsXfs.Admin.Edits
import MkfsXfs.Admin.Reopen
import MkfsXfs.Admin.Uuids
import MkfsXfs.Admin.Resumed
import MkfsXfs.Admin.LabelUuid
import MkfsXfs.Admin.Overrun
import MkfsXfs.Format.InPlace
import MkfsXfs.Lib.Bisect
import MkfsXfs.Log.Boundary
import MkfsXfs.Crc.Bitwise
import MkfsXfs.Log.Measure
import MkfsXfs.Lib.MergeKeys
import MkfsXfs.Inspect.Compare
import MkfsXfs.Lib.Utf8
import MkfsXfs.Log.Window
import MkfsXfs.Admin.Labels
import MkfsXfs.Format.Times
import MkfsXfs.Lib.Text
import MkfsXfs.Cli.Options
import MkfsXfs.Inspect.Pieces
import MkfsXfs.Inspect.Faithful
import MkfsXfs.Format.Left
import MkfsXfs.Admin.Renamed
import MkfsXfs.Lib.Rely
import MkfsXfs.Whole
import MkfsXfs.Format.Whole
import MkfsXfs.Admin.Blocks
import MkfsXfs.Admin.Calls
import MkfsXfs.Kept
import MkfsXfs.Admin.Contract
import MkfsXfs.Admin.Endures
import MkfsXfs.Inspect.Compared
import MkfsXfs.Format.Compared
import MkfsXfs.InMemory
import MkfsXfs.Sparse
import MkfsXfs.Cli.Admin
import MkfsXfs.Cli.Asked
import MkfsXfs.Format.Succeeds
