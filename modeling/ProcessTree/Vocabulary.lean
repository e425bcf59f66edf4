-- The registries of the six directions of a process tree. Quit has the same
-- tag wherever it may be sent.
import ProcessTree.Message
import ProcessTree.Registry

namespace ProcessTree

/-- A direction of a channel between a root and one of its processes. -/
inductive Direction where
  | rootToWorker
  | workerToRoot
  | rootToJob
  | jobToRoot
  | rootToZygote
  | zygoteToRoot
  deriving DecidableEq, Repr

namespace Direction

/-- All directions. -/
def all : List Direction :=
  [.rootToWorker, .workerToRoot, .rootToJob, .jobToRoot, .rootToZygote, .zygoteToRoot]

/-- The name of a direction. -/
def name : Direction → String
  | .rootToWorker => "root-to-worker"
  | .workerToRoot => "worker-to-root"
  | .rootToJob => "root-to-job"
  | .jobToRoot => "job-to-root"
  | .rootToZygote => "root-to-zygote"
  | .zygoteToRoot => "zygote-to-root"

/-- The tags and kinds of a direction. -/
def entries : Direction → List (UInt8 × String)
  | .rootToWorker => [(1, Kind.begin), (2, Kind.start), (255, Kind.quit)]
  | .workerToRoot => [(1, Kind.startResult)]
  | .rootToJob => [(1, Kind.begin), (255, Kind.quit)]
  | .rootToZygote => [(255, Kind.quit)]
  | .jobToRoot | .zygoteToRoot => []

/-- The registry of a direction. -/
def registry (d : Direction) : Registry :=
  match Registry.ofList d.name d.entries with
  | .ok r => r
  | .error _ => .empty d.name

/-- The entries of a direction do make a registry. -/
theorem ofList_entries (d : Direction) : Registry.ofList d.name d.entries = .ok d.registry := by
  cases d <;> rfl

/-- A root can send its worker any control message. -/
theorem exists_tag_rootToWorker (m : ControlMessage) :
    ∃ tag, rootToWorker.registry.tagOf? (Message.kind m) = some tag := by
  have hbegin : rootToWorker.registry.tagOf? Kind.begin = some 1 := rfl
  have hstart : rootToWorker.registry.tagOf? Kind.start = some 2 := rfl
  have hquit : rootToWorker.registry.tagOf? Kind.quit = some 255 := rfl
  cases m with
  | begin _ => exact ⟨1, hbegin⟩
  | start _ => exact ⟨2, hstart⟩
  | quit => exact ⟨255, hquit⟩

/-- A worker can send any reply. -/
theorem tagOf?_workerToRoot (m : ReplyMessage) :
    workerToRoot.registry.tagOf? (Message.kind m) = some 1 := by
  have hresult : workerToRoot.registry.tagOf? Kind.startResult = some 1 := rfl
  cases m with
  | startResult _ => exact hresult

/-- The direction of a name. -/
def ofName? (name : String) : Option Direction := all.find? (·.name == name)

end Direction

end ProcessTree
