import Asterisk.Vfs
import Asterisk.Lists
import Asterisk.LinkedList.Basic
import Asterisk.LinkedList.Shape
import Asterisk.LinkedList.Refinement
import Asterisk.LinkedList.Run
import Asterisk.SharedMemory.Basic
import Asterisk.SharedMemory.Teardown
import Asterisk.SharedMemory.Invariant
import Asterisk.SharedMemory.Directory
import Asterisk.UnixSocket.Basic
import Asterisk.UnixSocket.Rendezvous
import Asterisk.UnixSocket.Stream
import Asterisk.UnixSocket.Bind
import Asterisk.UnixSocket.Ready
import Asterisk.UnixSocket.Wakeup
import Asterisk.UnixSocket.WakeInvariant
import Asterisk.UnixSocket.Pairing
import Asterisk.Fat.Basic
import Asterisk.Fat.Path
import Asterisk.Fat.Calls
import Asterisk.Fat.Tree
import Asterisk.Fat.Mount
import Asterisk.Fat.Handles
import Asterisk.Fat.Files
import Asterisk.Fat.Offsets
import Asterisk.Systemfs.Basic
import Asterisk.Systemfs.Meminfo
import Asterisk.Systemfs.Threads
import Asterisk.Systemfs.Boot
import Asterisk.Systemfs.ThreadFile
