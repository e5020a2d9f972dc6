import HostAgent.Proofs.Container.Reports
import HostAgent.Proofs.FilePath

namespace HostAgent.Executor

/-!
# The device that a controller is waited for

A controller is ready when the device of its volume is there, which is the file of the volume's name
in the directory of the devices. The two texts are put together without a look at the name. A name
that a file can have is the name of a file in that directory. A name with slashes or dots may lead
elsewhere, to what has been there all along.
-/

open FilePath (IsRooted IsOpen IsFileName IsBelow Descends place)

variable {x : Executor} {r : Request} {p : ControllerPayload} {l : List (Exchange interface)}
variable {result : Except AgentError Instance} {i : Instance} {y : Exchange interface}
variable {q : String}

/-- The path that a call waits for. -/
def awaited? (y : Exchange interface) : Option String :=
  match y.1 with
  | .inr (.path q _) => some q
  | _ => none

theorem Launches.awaits_nothing {spec : Container.Spec} {role : Role}
    (h : Launches x spec role l result) (hy : y ∈ l) : awaited? y = none := by
  obtain ⟨c, hc⟩ := h.asks_engine hy
  rw [awaited?, hc]

theorem Awaits.path {volume : String} (h : Awaits x volume i l result) (hy : y ∈ l)
    (hq : awaited? y = some q) : q = x.budgets.devicePath volume := by
  have hserver : ∀ {a}, awaited? (waitExchange (x.serverWait i) a) ≠ some q := nofun
  have hdevice : ∀ {a}, awaited? (waitExchange (x.deviceWait volume) a) = some q →
      q = x.budgets.devicePath volume := fun h => (Option.some.inj h).symm
  cases h with
  | unserved e =>
    rw [List.mem_singleton.mp hy] at hq
    exact absurd hq hserver
  | deviceless e | ready =>
    rcases List.mem_pair.mp hy with rfl | rfl
    · exact absurd hq hserver
    · exact hdevice hq

/-- A controller is waited for at one path, whatever happens. -/
theorem Course.path (h : Course x (.createController p) l result) (hy : y ∈ l)
    (hq : awaited? y = some q) : q = x.budgets.devicePath p.volumeName := by
  cases h with
  | unlaunched h =>
    rw [h.awaits_nothing hy] at hq
    cases hq
  | awaited h h' =>
    rcases List.mem_append.mp hy with hy | hy
    · rw [h.awaits_nothing hy] at hq
      cases hq
    · exact h'.path hy hq

theorem Course.device (h : Course x (.createController p) l (.ok i)) :
    waitExchange (x.deviceWait p.volumeName) (.ok ()) ∈ l := by
  cases h with
  | awaited h h' =>
    cases h' with
    | ready =>
      exact List.mem_append_right _ (List.mem_cons_of_mem _ (List.mem_singleton_self _))

/-- The creation of a controller waits for one path, and succeeds only when this path is there. It
is the directory of the devices, a slash and the name of the volume unless the name is a path of its
own. It lies below the directory, whichever that is, for exactly the names that lead down and never
out of it on the way. A name that a file can have is the name of the file in the directory, so that
different volumes have different files. -/
theorem devices_awaited (x : Executor) (h : Admitted r (.createController p)) :
    (∀ l result, Task.Path (x.process r).run l (.done result) →
      ∀ y ∈ l, ∀ q, awaited? y = some q → q = x.budgets.devicePath p.volumeName) ∧
    (∀ l i, Task.Path (x.process r).run l (.done (.ok i)) →
      waitExchange (x.deviceWait p.volumeName) (.ok ()) ∈ l) ∧
    (x.budgets.devicePath p.volumeName = x.budgets.deviceRoot ++ "/" ++ p.volumeName ↔
      ¬ IsRooted p.volumeName ∧ IsOpen x.budgets.deviceRoot) ∧
    (Descends p.volumeName ↔
      ∀ cwd (b : Budgets), IsBelow cwd b.deviceRoot (b.devicePath p.volumeName)) ∧
    (IsFileName p.volumeName → ∀ cwd,
      place cwd (x.budgets.devicePath p.volumeName) =
        p.volumeName :: place cwd x.budgets.deviceRoot) := by
  refine ⟨fun l result hpath y hy q => ?_, fun l i hpath => ?_, FilePath.join_eq_iff, ?_, ?_⟩
  · exact ((path_process_iff h).mp hpath).path hy
  · exact ((path_process_iff h).mp hpath).device
  · rw [FilePath.descends_iff]
    exact ⟨fun hall cwd b => hall cwd b.deviceRoot,
      fun hall cwd root => hall cwd { x.budgets with deviceRoot := root }⟩
  · exact fun hname cwd => hname.place_join cwd x.budgets.deviceRoot

theorem isFileName_v1 : IsFileName "v1" := ⟨by decide, by decide, by decide⟩

theorem devices_awaited_v1 :
    Admitted controllerE1 (.createController controllerPayloadE1) ∧
      hostH1.budgets.devicePath "v1" = "/dev/longhorn/v1" ∧
      ∀ cwd (b : Budgets), IsBelow cwd b.deviceRoot (b.devicePath "v1") := by
  obtain ⟨-, -, htext, hbelow, -⟩ := devices_awaited hostH1 admitted_controllerE1
  exact ⟨admitted_controllerE1, htext.mpr (by decide), hbelow.mp isFileName_v1.descends⟩

def controllerOf (volume : String) : Request where
  action := .createController
  target := ⟨"e1", .controller, "h1"⟩
  envelope := .withPayload orchestrator (⟨"e1", volume, "image", []⟩ : ControllerPayload)

/-- A controller is ready because of a file that was there before any volume. Names that lead up,
or nowhere, do not lead below the directory either. -/
theorem device_elsewhere :
    (∃ l i, Task.Path (hostH1.process (controllerOf "/etc/hostname")).run l (.done (.ok i)) ∧
      waitExchange (.path "/etc/hostname" (.seconds 30)) (.ok ()) ∈ l) ∧
    ∀ volume ∈ ["/etc/hostname", "../null", "a/../..", "", "."],
      ¬ IsBelow [] hostH1.budgets.deviceRoot (hostH1.budgets.devicePath volume) := by
  have hreports := Reports.controller (x := hostH1) (r := controllerOf "/etc/hostname") rfl "c1"
    ⟨"c1", "/e1", "172.17.0.2", true⟩
  refine ⟨⟨_, _, (path_process_ok_iff (by decide)).mpr ⟨⟨rfl, by decide⟩, hreports⟩, ?_⟩, ?_⟩
  · exact List.mem_of_getLast? rfl
  · decide

end HostAgent.Executor
