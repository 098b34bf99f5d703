import MediaChannels.Command.Process

/-!
# The command line

The outermost layer. Regions are files of a directory: a command gets the region of its segment from there, and what it
leaves in the region is put back. A command that goes on does so until its standard input ends, round by round, and in
each round it sees what others have put into the region meanwhile.
-/

namespace MediaChannels.CommandLine

/-- The file of a region. -/
def regionFile (name : String) : String := s!"/dev/shm/{StartFault.program}_{name}"

/-- The number of a system error. Opening a file gives it as a negative number, reading as a positive one. -/
def numberOf (code : UInt32) : UInt32 := if code < 0x80000000 then code else 0 - code

/-- Why the system has refused something. -/
def causeOf : IO.Error → SystemError
  | .noFileOrDirectory .. => .noSuchFile
  | .permissionDenied .. => .permissionDenied
  | .inappropriateType _ code _ => if numberOf code = 20 then .notADirectory else .isADirectory
  | .invalidArgument _ code _ => if numberOf code = 36 then .fileNameTooLong else .invalidArgument
  | .hardwareFault .. => .inputOutput
  | .noSuchThing .. => .noSuchDevice
  | e => .other (toString e)

/-- The bytes of a file, or why there are none. -/
def bytesOfFile (path : String) : BaseIO (Except SystemError ByteArray) := do
  let read ← EIO.toBaseIO (IO.FS.readBinFile path)
  return read.mapError causeOf

/-- A memory object that holds bytes. -/
def objectOf (bytes : ByteArray) : MemoryObject :=
  let put := fun ((offset, memory) : Nat × Memory) (b : UInt8) =>
    (offset + 1, if b = 0 then memory else memory.setByte offset b)
  { size := bytes.size, memory := (bytes.foldl put (0, .zeroed)).2 }

/-- The bytes of a memory object. -/
def bytesOf (o : MemoryObject) : ByteArray :=
  o.memory.cells.foldl (fun bytes offset b => bytes.set! offset b) ⟨Array.replicate o.size 0⟩

/-- Shared memory in which a name stands for what its file holds. -/
def sharedMemoryOf (name : String) : Except SystemError ByteArray → SharedMemory
  | .ok bytes =>
    let (number, s) := SharedMemory.empty.addObject (objectOf bytes)
    s.setName name (.object number)
  | .error .noSuchFile => .empty
  | .error _ => SharedMemory.empty.setName name .blocked

/-- The bytes of the region with a name, if its name can be used. -/
def load (name : String) : BaseIO (Except SystemError ByteArray) :=
  match SharedMemory.checkName name with
  | .ok () => bytesOfFile (regionFile name)
  | .error _ => return .error .noSuchFile

/-- Puts back the region with a name where it differs from what was loaded. -/
def save (name : String) (loaded : Except SystemError ByteArray) (s : SharedMemory) : IO Unit :=
  match s.find? name, loaded with
  | some (.object number), _ => do
    let bytes := bytesOf (s.object number)
    unless loaded.toOption == some bytes do IO.FS.writeBinFile (regionFile name) bytes
  | none, .ok _ => IO.FS.removeFile (regionFile name)
  | _, _ => pure ()

/-- The segment that an invocation is about. -/
def segmentName (command : Command) (config : HostConfig) : String :=
  match command with
  | .serve .. => config.segment.name
  | .forward segment _ | .drain segment _ | .signal segment _ _ | .status segment => segment

/-- The machine in whose memory the region with a name holds the bytes that were loaded. -/
def refresh (m : Machine) (number : Nat) : Except SystemError ByteArray → Machine
  | .ok bytes => { m with shared := m.shared.setObject number (objectOf bytes) }
  | .error _ => m

/-- Milliseconds between two rounds of a process: the length of a frame, or the pace of a forwarder. -/
def roundLength (p : Process) : Nat :=
  match p.work with
  | .keep _ => 100
  | .session s => TestPattern.interval s.settings s.handle.channel.kind
  | .follow .. => p.config.pollInterval.toNat

/-- Lets a process go on until the task `stop` has ended, and gives its exit code. -/
partial def keepRunning (stop : Task Unit) (name : String) (p : Process) (m : Machine) : IO UInt32 := do
  let loaded ← load name
  let m := refresh m p.region.object loaded
  if ← IO.hasFinished stop then
    let (code, m) := p.interrupt m
    save name loaded m.shared
    return UInt32.ofNat code
  let (p, m) := p.tick none m
  let (p, m) := p.advance m
  save name loaded m.shared
  IO.sleep (UInt32.ofNat (roundLength p))
  keepRunning stop name p m

/-- Reads standard input to its end. -/
partial def awaitEndOfInput (input : IO.FS.Stream) : BaseIO Unit := do
  match ← EIO.toBaseIO input.getLine with
  | .ok line => unless line.isEmpty do awaitEndOfInput input
  | .error _ => pure ()

/-- Runs an invocation with its configuration. -/
def runInvocation (i : Invocation) (config : HostConfig) : IO UInt32 := do
  let name := segmentName i.command config
  let loaded ← load name
  let (outcome, m) := i.command.run config { shared := sharedMemoryOf name loaded }
  save name loaded m.shared
  match outcome with
  | .ended code output =>
    output.forM IO.println
    return UInt32.ofNat code
  | .running p =>
    let stop ← BaseIO.asTask (awaitEndOfInput (← IO.getStdin))
    keepRunning stop name p m

/-- Reports why a command is not begun. -/
def refuse (fault : StartFault) : IO UInt32 := do
  IO.eprintln (fault.message?.getD s!"usage: {StartFault.program} [OPTIONS] <COMMAND>")
  return UInt32.ofNat fault.exitCode

/-- Runs a command line. -/
def runArguments (args : List String) : IO UInt32 := do
  match read args with
  | none => refuse .usage
  | some i =>
    let file ← match i.config with
      | some path => bytesOfFile path
      | none => pure (.ok .empty)
    match i.configure fun _ => file.map (·.toList) with
    | .error fault => refuse fault
    | .ok config => runInvocation i config

end MediaChannels.CommandLine

/-- The entry of the program. -/
def main (args : List String) : IO UInt32 := MediaChannels.CommandLine.runArguments args
