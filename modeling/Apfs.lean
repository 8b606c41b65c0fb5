import Apfs.Endian
import Apfs.StructFuncs
import Apfs.Ctree
import Apfs.Packed
import Apfs.TreeChecker.Walk
import Apfs.TreeChecker.Items
import Apfs.TreeChecker.Extents
import Apfs.TreeChecker.Leaf
import Apfs.TreeChecker.Layout
import Apfs.TreeChecker.Bounds
import Apfs.TreeChecker.Accepted
import Apfs.TreeChecker.Loops
import Apfs.TreeChecker.Ranges
import Apfs.TreeChecker.ItemLoads
import Apfs.TreeChecker.WalkLoads
import Apfs.Buf.Ioapply
import Apfs.Buf.Submit
import Apfs.Buf.NextChunk
import Apfs.Buf.Errors
import Apfs.Buf.Cover
import Apfs.TreeDefrag
