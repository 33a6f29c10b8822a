import KernelCore.Error
import KernelCore.Flags

/-!
# Events

What the kernel notes while it works. An event is a value of its own; its level, the part of
the kernel it comes from and its text are read off it when it is shown, so no operation's
answer depends on which events anyone listens to.
-/

namespace KernelCore

/-! ## Levels -/

inductive Level where
  | error
  | warn
  | info
  | debug
  | trace
deriving DecidableEq, Repr

namespace Level

def all : List Level := [error, warn, info, debug, trace]

def rank : Level → Nat
  | error => 1
  | warn => 2
  | info => 3
  | debug => 4
  | trace => 5

def name : Level → String
  | error => "ERROR"
  | warn => "WARN"
  | info => "INFO"
  | debug => "DEBUG"
  | trace => "TRACE"

end Level

/-- The least urgent level that is shown; `none` shows nothing. -/
abbrev LevelFilter := Option Level

namespace LevelFilter

def rank (filter : LevelFilter) : Nat := (filter.map Level.rank).getD 0

def name (filter : LevelFilter) : String := (filter.map Level.name).getD "OFF"

def enabled (filter : LevelFilter) (level : Level) : Bool := level.rank ≤ filter.rank

end LevelFilter

/-! ## Events -/

inductive Subsystem where
  | frames
  | paging
  | heap
  | memory
  | scheduler
  | logging
deriving DecidableEq, Repr

inductive Event where
  | framesCounted (frames words addr : Nat)
  | frameKept (frame : Nat)
  | tableNotCreated (virt : Nat) (cause : PagingError)
  | heapCreated (start stop limit : Nat) (flags : HeapFlags)
  | heapGrown (old new : Nat)
  | heapContracted (old new : Nat)
  | heapDestroyed (start stop : Nat)
  | memoryReady (frames base directory : Nat)
  | kernelIdentityMapped (stop : Nat)
  | pagingEnabled (directory : Nat)
  | heapEnabled (start stop : Nat)
  | spaceCreated (directory : Nat)
  | spaceDestroyed (directory : Nat)
  | demandMapped (page addr : Nat)
  | schedulerStarted (main idle : Nat)
  | spawnFailed (entry : Nat) (cause : SpawnError)
  | spawned (pid entry level base size : Nat)
  | switched (previous next resume : Nat)
  | exited (pid : Nat)
  | killed (pid : Nat)
  | reaped (pid : Nat)
  | listenerInstalled
deriving DecidableEq, Repr

namespace Event

def level : Event → Level
  | tableNotCreated .. | spawnFailed .. => .warn
  | memoryReady .. | kernelIdentityMapped .. | pagingEnabled .. | heapEnabled ..
  | schedulerStarted .. => .info
  | heapGrown .. | heapContracted .. | switched .. => .trace
  | framesCounted .. | frameKept .. | heapCreated .. | heapDestroyed .. | spaceCreated ..
  | spaceDestroyed .. | demandMapped .. | spawned .. | exited .. | killed .. | reaped ..
  | listenerInstalled => .debug

def subsystem : Event → Subsystem
  | framesCounted .. | frameKept .. => .frames
  | tableNotCreated .. => .paging
  | heapCreated .. | heapGrown .. | heapContracted .. | heapDestroyed .. => .heap
  | memoryReady .. | kernelIdentityMapped .. | pagingEnabled .. | heapEnabled ..
  | spaceCreated .. | spaceDestroyed .. | demandMapped .. => .memory
  | schedulerStarted .. | spawnFailed .. | spawned .. | switched .. | exited .. | killed ..
  | reaped .. => .scheduler
  | listenerInstalled => .logging

def text : Event → String
  | framesCounted frames words addr =>
      s!"frame bitmap: {frames} frames, {words} words at {hex addr}"
  | frameKept frame => s!"frame_alloc: entry already maps {hex frame}"
  | tableNotCreated virt cause => s!"page table for {hex virt} not created: {cause.message}"
  | heapCreated start stop limit flags =>
      s!"heap created: {hex start}..{hex stop}, max {hex limit}, {flags.text}"
  | heapGrown old new => s!"heap grown: {hex old} -> {hex new}"
  | heapContracted old new => s!"heap contracted: {hex old} -> {hex new}"
  | heapDestroyed start stop => s!"heap destroyed: {hex start}..{hex stop}"
  | memoryReady frames base directory =>
      s!"memory: {frames} frames, static memory from {hex base}, "
        ++ s!"kernel directory at {hex directory}"
  | kernelIdentityMapped stop => s!"identity mapped {hex 0}..{hex stop}"
  | pagingEnabled directory => s!"paging enabled, directory {hex directory}"
  | heapEnabled start stop => s!"kmalloc enabled: {hex start}..{hex stop}"
  | spaceCreated directory => s!"address space created, directory {hex directory}"
  | spaceDestroyed directory => s!"address space destroyed, directory {hex directory}"
  | demandMapped page addr => s!"demand mapped {hex page} for fault at {hex addr}"
  | schedulerStarted main idle => s!"scheduler started: main {main}, idle {idle}"
  | spawnFailed entry cause => s!"spawn of {hex entry} failed: {cause.message}"
  | spawned pid entry level base size =>
      s!"spawned {pid} at {hex entry}, priority {level}, stack {hex base}+{hex size}"
  | switched previous next resume => s!"switch {previous} -> {next} at {hex resume}"
  | exited pid => s!"process {pid} exited"
  | killed pid => s!"process {pid} killed"
  | reaped pid => s!"reaped process {pid}"
  | listenerInstalled => "logger already installed"

def shown (filter : LevelFilter) (events : List Event) : List Event :=
  events.filter fun event => filter.enabled event.level

end Event

end KernelCore
