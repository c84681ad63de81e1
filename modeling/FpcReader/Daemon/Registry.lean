/-
**The manager of the readers.**

The daemon has one manager.  It knows the kinds of reader its drivers have announced, starts a
worker for a reader when it is plugged in, and keeps the object paths that the bus offers to its
clients.  A worker owns at most one device task, which registers a path when it starts and takes it
back when it ends.

Main definitions:

* `Fpc.Manager` — the manager, with the workers that run;
* `Fpc.Manager.step` — what may happen: a reader is plugged in or out, a worker becomes ready, its
  device task ends, the worker ends;
* `Fpc.Manager.Sound` — what holds at any time.

Main results:

* `Fpc.Manager.Sound.step` — every step keeps it;
* `Fpc.manager_serves` — **no reader has two workers, and the bus offers the devices that run**.
-/

import FpcReader.Lib.Loops
import FpcReader.Lib.Transition
import Mathlib

set_option relaxedAutoImplicit false
set_option autoImplicit false

namespace Fpc

/-! ### The source's functions -/

/-- A kind of reader, and whether a worker has one. -/
structure USBDeviceInfo where
  vendor : UInt16
  product : UInt16
  attached : Bool

/-- The device task of a worker. -/
inductive DeviceTask where
  | absent
  | serving (path : String)
  | ended

/-- The path that a device task has registered. -/
def DeviceTask.path : DeviceTask → Option String
  | .serving path => some path
  | .absent | .ended => none

/-- A worker, with the place of its kind of reader in the list. -/
structure ControlWorker where
  info : ℕ
  device : DeviceTask

/-- The manager. -/
structure Manager where
  infos : List USBDeviceInfo
  workers : List ControlWorker
  /-- An unordered set. -/
  devices : List String
  nextId : ℕ

/-- The drivers announce their kinds of reader, each before those that are there. -/
def addUsbDevice (infos : List USBDeviceInfo) (device : USBDeviceInfo) : List USBDeviceInfo :=
  device :: infos

/-- The manager when the daemon starts. -/
def Manager.ofDrivers (drivers : List USBDeviceInfo) : Manager :=
  ⟨drivers.foldl addUsbDevice [], [], [], 0⟩

/-- The path of the device with a number. -/
def devicePath (id : ℕ) : String := "/net/reactivated/Device/" ++ id.repr

namespace Manager

def registerDevice (m : Manager) : String × Manager :=
  (devicePath m.nextId, { m with
    nextId := (m.nextId + 1) % 2 ^ 64
    devices := m.devices.insert (devicePath m.nextId) })

def unregisterDevice (m : Manager) (path : String) : Manager :=
  { m with devices := m.devices.erase path }

/-- A worker marks its kind of reader as attached. -/
def startWorker (m : Manager) (i : ℕ) : Manager :=
  { m with
    infos := m.infos.modify i fun info => { info with attached := true }
    workers := ⟨i, .absent⟩ :: m.workers }

/-- What the hotplug callback does for one kind of reader. -/
def hotplugInfo (vendor product : UInt16) (connected : Bool) (m : Manager) (i : ℕ) : Manager :=
  match m.infos[i]? with
  | none => m
  | some info =>
      if info.vendor = vendor ∧ info.product = product ∧ info.attached = false ∧
          connected = true then m.startWorker i
      else m

def hotplugCallback (m : Manager) (vendor product : UInt16) (connected : Bool) : Manager :=
  (List.range m.infos.length).foldl (hotplugInfo vendor product connected) m

/-- A device task that ends takes its path back. -/
def endDevice (m : Manager) (task : DeviceTask) : Manager :=
  match task with
  | .serving path => m.unregisterDevice path
  | .absent | .ended => m

/-- A worker that is ready starts its device task, unless it has had one. -/
def workerReady (m : Manager) (w : ℕ) (worker : ControlWorker) : Manager :=
  match worker.device with
  | .absent =>
      let registered := m.registerDevice
      { registered.2 with
        workers := m.workers.set w { worker with device := .serving registered.1 } }
  | .serving _ | .ended => m

/-- A running device task may end before its worker does. -/
def deviceEnds (m : Manager) (w : ℕ) (worker : ControlWorker) : Manager :=
  { m.endDevice worker.device with
    workers := m.workers.set w
      { worker with device := if worker.device.path.isSome then .ended else worker.device } }

/-- A worker that ends cancels its device task and gives its kind of reader back. -/
def workerEnds (m : Manager) (w : ℕ) (worker : ControlWorker) : Manager :=
  { m.endDevice worker.device with
    infos := m.infos.modify worker.info fun info => { info with attached := false }
    workers := m.workers.eraseIdx w }

/-- What may happen. -/
inductive Event where
  | hotplug (vendor product : UInt16) (connected : Bool)
  | ready (w : ℕ)
  | deviceEnds (w : ℕ)
  | ends (w : ℕ)

def step (m : Manager) : Event → Option Manager
  | .hotplug vendor product connected => some (m.hotplugCallback vendor product connected)
  | .ready w => (m.workers[w]?).map (m.workerReady w)
  | .deviceEnds w => (m.workers[w]?).map (m.deviceEnds w)
  | .ends w => (m.workers[w]?).map (m.workerEnds w)

section Replies

variable (order : List String → List String)

/-- What the clients are told; the order is that of the set. -/
def getDevices (m : Manager) : List String := order m.devices

/-- The first device of the set, or the name of an error. -/
def getDefaultDevice (m : Manager) : Except String String :=
  match order m.devices with
  | [] => .error "net.reactivated.Fprint.Error.NoSuchDevice"
  | path :: _ => .ok path

end Replies

/-! ### What holds at any time -/

/-- The paths of the device tasks that run. -/
def servedPaths (workers : List ControlWorker) : List String :=
  workers.filterMap fun worker => worker.device.path

/-- No two workers have one kind of reader, those that have one are marked, and the paths are those
of the device tasks that run, each registered under a number of its own. -/
structure Sound (m : Manager) : Prop where
  alone : (m.workers.map ControlWorker.info).Nodup
  attached : ∀ i info, m.infos[i]? = some info →
    (info.attached = true ↔ i ∈ m.workers.map ControlWorker.info)
  served : m.devices.Perm (servedPaths m.workers)
  once : m.devices.Nodup
  issued : ∀ path ∈ m.devices, ∃ id < m.nextId, path = devicePath id

theorem append_repr_injective {start : String} {a b : ℕ} (h : start ++ a.repr = start ++ b.repr) :
    a = b :=
  Nat.repr_injective ((String.append_right_inj start).1 h)

theorem devicePath_injective {a b : ℕ} (h : devicePath a = devicePath b) : a = b :=
  append_repr_injective h

/-- A list around one of its entries. -/
theorem split_at {α : Type} {l : List α} {w : ℕ} {a : α} (h : l[w]? = some a) :
    ∃ before after, l = before ++ a :: after ∧ (∀ b, l.set w b = before ++ b :: after) ∧
      l.eraseIdx w = before ++ after := by
  obtain ⟨hlt, rfl⟩ := List.getElem?_eq_some_iff.1 h
  refine ⟨l.take w, l.drop (w + 1), ?_, fun b => ?_, List.eraseIdx_eq_take_drop_succ l w⟩
  · rw [List.cons_getElem_drop_succ, List.take_append_drop]
  · rw [List.set_eq_take_append_cons_drop, if_pos hlt]

theorem Sound.startWorker {m : Manager} (hm : m.Sound) {i : ℕ} {info : USBDeviceInfo}
    (hinfo : m.infos[i]? = some info) (hfree : info.attached = false) :
    (m.startWorker i).Sound where
  alone := by
    refine List.nodup_cons.2 ⟨fun hmem => ?_, hm.alone⟩
    have := (hm.attached i info hinfo).2 hmem
    rw [hfree] at this
    cases this
  attached := by
    intro j found hfound
    simp only [Manager.startWorker, List.getElem?_modify, Option.map_eq_map,
      Option.map_eq_some_iff] at hfound
    obtain ⟨old, hold, rfl⟩ := hfound
    have hmem : j ∈ (m.startWorker i).workers.map ControlWorker.info ↔
        j = i ∨ j ∈ m.workers.map ControlWorker.info := List.mem_cons
    rw [hmem]
    by_cases hij : i = j
    · simp [hij]
    · rw [if_neg hij, hm.attached j old hold, or_iff_right (Ne.symm hij)]
  served := hm.served
  once := hm.once
  issued := hm.issued

theorem Sound.hotplug {m : Manager} (hm : m.Sound) (vendor product : UInt16) (connected : Bool) :
    (m.hotplugCallback vendor product connected).Sound ∧
      (m.hotplugCallback vendor product connected).nextId = m.nextId := by
  rw [hotplugCallback]
  refine Loops.foldl_range (fun _ (s : Manager) => s.Sound ∧ s.nextId = m.nextId) ⟨hm, rfl⟩ ?_
  rintro i - s ⟨hs, hnext⟩
  rw [hotplugInfo]
  split
  · exact ⟨hs, hnext⟩
  · rename_i info hinfo
    split_ifs with hstart
    · exact ⟨hs.startWorker hinfo hstart.2.2.1, hnext⟩
    · exact ⟨hs, hnext⟩

/-- An arrival leaves no kind of reader that matches without a worker. -/
theorem hotplug_attaches {m : Manager} {vendor product : UInt16} {i : ℕ} {info : USBDeviceInfo}
    (h : (m.hotplugCallback vendor product true).infos[i]? = some info)
    (hvendor : info.vendor = vendor) (hproduct : info.product = product) :
    info.attached = true := by
  have hloop := @Loops.foldl_range _ (hotplugInfo vendor product true)
    (fun n s => s.infos.length = m.infos.length ∧ ∀ i < n, ∀ info, s.infos[i]? = some info →
      info.vendor = vendor → info.product = product → info.attached = true)
    m.infos.length m ⟨rfl, fun i hi => absurd hi (Nat.not_lt_zero i)⟩ ?_
  · obtain ⟨hlength, hall⟩ := hloop
    have hlt := (List.getElem?_eq_some_iff.1 h).1
    rw [hotplugCallback, hlength] at hlt
    exact hall i hlt info h hvendor hproduct
  rintro k - s ⟨hlength, hall⟩
  rw [hotplugInfo]
  cases hfound : s.infos[k]? with
  | none =>
      refine ⟨hlength, fun i hi info hinfo => ?_⟩
      rcases Nat.lt_succ_iff_lt_or_eq.1 hi with hlt | rfl
      · exact hall i hlt info hinfo
      · rw [hfound] at hinfo
        cases hinfo
  | some found =>
      dsimp only
      split_ifs with hstart
      · refine ⟨(List.length_modify _ _ _).trans hlength, fun i hi info hinfo => ?_⟩
        simp only [Manager.startWorker, List.getElem?_modify, Option.map_eq_map,
          Option.map_eq_some_iff] at hinfo
        obtain ⟨old, hold, rfl⟩ := hinfo
        by_cases hki : k = i
        · simp [hki]
        · rw [if_neg hki]
          exact hall i (by omega) old hold
      · refine ⟨hlength, fun i hi info hinfo hv hp => ?_⟩
        rcases Nat.lt_succ_iff_lt_or_eq.1 hi with hlt | rfl
        · exact hall i hlt info hinfo hv hp
        · rw [hfound] at hinfo
          obtain rfl := Option.some.inj hinfo
          by_contra hfree
          exact hstart ⟨hv, hp, Bool.eq_false_iff.2 hfree, rfl⟩

theorem servedPaths_split (before after : List ControlWorker) (worker : ControlWorker) :
    servedPaths (before ++ worker :: after) =
      servedPaths before ++ (worker.device.path.toList ++ servedPaths after) := by
  rw [servedPaths, List.filterMap_append, List.filterMap_cons]
  cases worker.device.path <;> rfl

/-- Another device task in a worker changes the paths only. -/
theorem Sound.replace {m m' : Manager} (hm : m.Sound) {w : ℕ} {worker : ControlWorker}
    (hw : m.workers[w]? = some worker) {task : DeviceTask} (hinfos : m'.infos = m.infos)
    (hworkers : m'.workers = m.workers.set w { worker with device := task })
    (hserved : m'.devices.Perm (servedPaths m'.workers)) (honce : m'.devices.Nodup)
    (hissued : ∀ path ∈ m'.devices, ∃ id < m'.nextId, path = devicePath id) : m'.Sound := by
  obtain ⟨before, after, hsplit, hset, -⟩ := split_at hw
  have hsame : m'.workers.map ControlWorker.info = m.workers.map ControlWorker.info := by
    rw [hworkers, hset, hsplit, List.map_append, List.map_append, List.map_cons, List.map_cons]
  refine ⟨hsame ▸ hm.alone, fun i info hinfo => ?_, hserved, honce, hissued⟩
  rw [hsame]
  exact hm.attached i info (hinfos ▸ hinfo)

theorem Sound.ready {m : Manager} (hm : m.Sound) {w : ℕ} {worker : ControlWorker}
    (hw : m.workers[w]? = some worker) (hnext : m.nextId + 1 < 2 ^ 64) :
    (m.workerReady w worker).Sound ∧ (m.workerReady w worker).nextId ≤ m.nextId + 1 := by
  rw [workerReady]
  split
  · rename_i habsent
    have hfresh : devicePath m.nextId ∉ m.devices := by
      intro hmem
      obtain ⟨id, hlt, hpath⟩ := hm.issued _ hmem
      exact absurd (devicePath_injective hpath) hlt.ne'
    have hinsert : m.devices.insert (devicePath m.nextId) = devicePath m.nextId :: m.devices :=
      List.insert_of_not_mem hfresh
    have hincrement : (m.nextId + 1) % 2 ^ 64 = m.nextId + 1 := Nat.mod_eq_of_lt hnext
    refine ⟨hm.replace hw rfl rfl ?_ ?_ ?_, ?_⟩
    · obtain ⟨before, after, hsplit, hset, -⟩ := split_at hw
      have hserved := hm.served
      rw [hsplit, servedPaths_split, habsent] at hserved
      simp only [registerDevice, hinsert, hset, servedPaths_split]
      exact (hserved.cons _).trans List.perm_middle.symm
    · simp only [registerDevice, hinsert]
      exact List.nodup_cons.2 ⟨hfresh, hm.once⟩
    · simp only [registerDevice, hinsert, hincrement, List.mem_cons]
      rintro path (rfl | hmem)
      · exact ⟨_, Nat.lt_succ_self _, rfl⟩
      · obtain ⟨id, hlt, hpath⟩ := hm.issued path hmem
        exact ⟨id, Nat.lt_succ_of_lt hlt, hpath⟩
    · exact (Nat.mod_le _ _)
  · exact ⟨hm, Nat.le_succ _⟩
  · exact ⟨hm, Nat.le_succ _⟩

/-- The end of a device task takes its path, and nothing else, out of the set. -/
theorem endDevice_spec {m : Manager} {task : DeviceTask} {before after : List String}
    (h : m.devices.Perm (before ++ (task.path.toList ++ after))) :
    (m.endDevice task).devices.Perm (before ++ after) ∧
      (m.endDevice task).devices.Sublist m.devices ∧ (m.endDevice task).nextId = m.nextId ∧
        (m.endDevice task).infos = m.infos := by
  cases task with
  | absent => exact ⟨h, List.Sublist.refl _, rfl, rfl⟩
  | ended => exact ⟨h, List.Sublist.refl _, rfl, rfl⟩
  | serving path =>
      refine ⟨?_, List.erase_sublist, rfl, rfl⟩
      have hfirst := (h.trans List.perm_middle).erase path
      rwa [List.erase_cons_head] at hfirst

theorem Sound.deviceEnds {m : Manager} (hm : m.Sound) {w : ℕ} {worker : ControlWorker}
    (hw : m.workers[w]? = some worker) :
    (m.deviceEnds w worker).Sound ∧ (m.deviceEnds w worker).nextId = m.nextId := by
  obtain ⟨before, after, hsplit, hset, -⟩ := split_at hw
  have hserved := hm.served
  rw [hsplit, servedPaths_split] at hserved
  obtain ⟨hperm, hsub, hnext, hinfos⟩ := endDevice_spec hserved
  refine ⟨hm.replace hw hinfos rfl ?_ (hm.once.sublist hsub) ?_, hnext⟩
  · have hnone : DeviceTask.path (if worker.device.path.isSome then .ended else worker.device) =
        none := by
      cases worker.device <;> rfl
    simp only [Manager.deviceEnds, hset, servedPaths_split, hnone]
    exact hperm
  · simp only [Manager.deviceEnds, hnext]
    exact fun path hpath => hm.issued path (hsub.subset hpath)

theorem Sound.ends {m : Manager} (hm : m.Sound) {w : ℕ} {worker : ControlWorker}
    (hw : m.workers[w]? = some worker) :
    (m.workerEnds w worker).Sound ∧ (m.workerEnds w worker).nextId = m.nextId := by
  obtain ⟨before, after, hsplit, -, herase⟩ := split_at hw
  have hserved := hm.served
  rw [hsplit, servedPaths_split] at hserved
  obtain ⟨hperm, hsub, hnext, -⟩ := endDevice_spec hserved
  have hmiddle : (m.workers.map ControlWorker.info).Perm
      (worker.info :: (before ++ after).map ControlWorker.info) := by
    rw [hsplit, List.map_append, List.map_append, List.map_cons]
    exact List.perm_middle
  obtain ⟨hleft, halone⟩ := List.nodup_cons.1 (hmiddle.nodup_iff.1 hm.alone)
  refine ⟨⟨?_, ?_, ?_, hm.once.sublist hsub, ?_⟩, hnext⟩
  · simp only [workerEnds, herase]
    exact halone
  · intro j found hfound
    simp only [workerEnds, List.getElem?_modify, Option.map_eq_map,
      Option.map_eq_some_iff] at hfound
    obtain ⟨old, hold, rfl⟩ := hfound
    have hold := hm.attached j old hold
    rw [hmiddle.mem_iff, List.mem_cons] at hold
    simp only [workerEnds, herase]
    by_cases hij : worker.info = j
    · subst hij
      simpa using hleft
    · rw [if_neg hij, hold, or_iff_right (Ne.symm hij)]
  · simp only [workerEnds, herase]
    exact hperm.trans (by rw [servedPaths, servedPaths, servedPaths, List.filterMap_append])
  · simp only [workerEnds, hnext]
    exact fun path hpath => hm.issued path (hsub.subset hpath)

/-- **Every step keeps what holds.** -/
theorem Sound.step {m m' : Manager} {event : Event} (hm : m.Sound) (hnext : m.nextId + 1 < 2 ^ 64)
    (h : m.step event = some m') : m'.Sound ∧ m'.nextId ≤ m.nextId + 1 := by
  cases event with
  | hotplug vendor product connected =>
      obtain rfl := Option.some.inj h
      obtain ⟨hsound, hsame⟩ := hm.hotplug vendor product connected
      exact ⟨hsound, hsame.le.trans (Nat.le_succ _)⟩
  | ready w =>
      obtain ⟨worker, hw, rfl⟩ := Option.map_eq_some_iff.1 h
      exact hm.ready hw hnext
  | deviceEnds w =>
      obtain ⟨worker, hw, rfl⟩ := Option.map_eq_some_iff.1 h
      obtain ⟨hsound, hsame⟩ := hm.deviceEnds hw
      exact ⟨hsound, hsame.le.trans (Nat.le_succ _)⟩
  | ends w =>
      obtain ⟨worker, hw, rfl⟩ := Option.map_eq_some_iff.1 h
      obtain ⟨hsound, hsame⟩ := hm.ends hw
      exact ⟨hsound, hsame.le.trans (Nat.le_succ _)⟩

theorem Sound.run {m m' : Manager} {events : List Event} (hm : m.Sound)
    (hfew : m.nextId + events.length < 2 ^ 64)
    (h : Transition.run Manager.step m events = some m') : m'.Sound := by
  induction events generalizing m with
  | nil =>
      obtain rfl := Option.some.inj h
      exact hm
  | cons event events ih =>
      obtain ⟨next, hnext, hrest⟩ := Transition.run_cons.1 h
      rw [List.length_cons] at hfew
      obtain ⟨hsound, hle⟩ := hm.step (by omega) hnext
      exact ih hsound (by omega) hrest

theorem mem_addUsbDevices {drivers infos : List USBDeviceInfo} {info : USBDeviceInfo}
    (h : info ∈ drivers.foldl addUsbDevice infos) : info ∈ drivers ∨ info ∈ infos := by
  induction drivers generalizing infos with
  | nil => exact Or.inr h
  | cons driver drivers ih =>
      rcases ih h with hmem | hmem
      · exact Or.inl (List.mem_cons_of_mem _ hmem)
      · rcases List.mem_cons.1 hmem with rfl | hmem
        · exact Or.inl List.mem_cons_self
        · exact Or.inr hmem

theorem sound_ofDrivers {drivers : List USBDeviceInfo}
    (hidle : ∀ driver ∈ drivers, driver.attached = false) : (ofDrivers drivers).Sound where
  alone := List.nodup_nil
  attached := by
    intro i info hinfo
    have hfree := hidle info
      ((mem_addUsbDevices (List.mem_of_getElem? hinfo)).resolve_right List.not_mem_nil)
    rw [hfree]
    exact iff_of_false Bool.false_ne_true List.not_mem_nil
  served := List.Perm.nil
  once := List.nodup_nil
  issued := fun _ h => absurd h List.not_mem_nil

theorem path_eq_some {task : DeviceTask} {path : String} :
    task.path = some path ↔ task = .serving path := by
  cases task <;> simp [DeviceTask.path]

theorem mem_servedPaths {workers : List ControlWorker} {path : String} :
    path ∈ servedPaths workers ↔ ∃ worker ∈ workers, worker.device = .serving path := by
  rw [servedPaths, List.mem_filterMap]
  exact exists_congr fun worker => and_congr_right fun _ => path_eq_some

end Manager

/-- **No reader has two workers, and the bus offers the devices that run.**  After any events, the
kinds of reader that are marked are those with a worker, and each has only one; once a reader
arrives its kind has one.  Clients are told the paths of the running device tasks, all different,
and are refused a default device only when none runs. -/
theorem manager_serves {drivers : List USBDeviceInfo}
    (hidle : ∀ driver ∈ drivers, driver.attached = false) {events : List Manager.Event}
    (hfew : events.length < 2 ^ 64) {m : Manager}
    (hrun : Transition.run Manager.step (.ofDrivers drivers) events = some m)
    {order : List String → List String} (horder : ∀ paths, (order paths).Perm paths) :
    (m.workers.map ControlWorker.info).Nodup ∧
    (∀ i info, m.infos[i]? = some info →
      (info.attached = true ↔ ∃ worker ∈ m.workers, worker.info = i)) ∧
    (∀ vendor product i info,
      (m.hotplugCallback vendor product true).infos[i]? = some info → info.vendor = vendor →
        info.product = product →
          ∃ worker ∈ (m.hotplugCallback vendor product true).workers, worker.info = i) ∧
    (Manager.servedPaths m.workers).Nodup ∧ (m.getDevices order).Nodup ∧
    (∀ path, path ∈ m.getDevices order ↔ ∃ worker ∈ m.workers, worker.device = .serving path) ∧
    (∀ path, m.getDefaultDevice order = .ok path →
      ∃ worker ∈ m.workers, worker.device = .serving path) ∧
    ((∃ error, m.getDefaultDevice order = .error error) ↔
      ∀ worker ∈ m.workers, ∀ path, worker.device ≠ .serving path) := by
  have hsound : m.Sound := (Manager.sound_ofDrivers hidle).run (by
    rw [Manager.ofDrivers, Nat.zero_add]
    exact hfew) hrun
  have hlisted (path : String) : path ∈ order m.devices ↔
      ∃ worker ∈ m.workers, worker.device = .serving path := by
    rw [(horder m.devices).mem_iff, hsound.served.mem_iff, Manager.mem_servedPaths]
  refine ⟨hsound.alone, fun i info hinfo => ?_, ?_, hsound.served.nodup_iff.1 hsound.once,
    (horder m.devices).nodup_iff.2 hsound.once, hlisted, ?_, ?_⟩
  · rw [hsound.attached i info hinfo, List.mem_map]
  · intro vendor product i info hinfo hvendor hproduct
    have hattached := Manager.hotplug_attaches hinfo hvendor hproduct
    have hsound' := (hsound.hotplug vendor product true).1
    exact List.mem_map.1 ((hsound'.attached i info hinfo).1 hattached)
  · intro path hpath
    rw [Manager.getDefaultDevice] at hpath
    split at hpath
    · cases hpath
    · rename_i first rest hdevices
      obtain rfl := Except.ok.inj hpath
      exact (hlisted first).1 (hdevices ▸ List.mem_cons_self)
  · rw [Manager.getDefaultDevice]
    split
    · rename_i hdevices
      refine iff_of_true ⟨_, rfl⟩ fun worker hworker path hserving => ?_
      have := (hlisted path).2 ⟨worker, hworker, hserving⟩
      rw [hdevices] at this
      exact List.not_mem_nil this
    · rename_i first rest hdevices
      refine iff_of_false (fun ⟨_, h⟩ => by cases h) fun hnone => ?_
      obtain ⟨worker, hworker, hserving⟩ := (hlisted first).1 (hdevices ▸ List.mem_cons_self)
      exact hnone worker hworker first hserving

/-- The reader of this driver, plugged in twice. -/
theorem manager_serves_reader : ∃ m : Manager,
    Transition.run Manager.step (.ofDrivers [⟨0x10a5, 0x9201, false⟩])
      [.hotplug 0x10a5 0x9201 true, .ready 0, .hotplug 0x10a5 0x9201 true] = some m ∧
      (m.workers.map ControlWorker.info).Nodup := by
  obtain ⟨m, hm⟩ : ∃ m : Manager,
      Transition.run Manager.step (.ofDrivers [⟨0x10a5, 0x9201, false⟩])
        [.hotplug 0x10a5 0x9201 true, .ready 0, .hotplug 0x10a5 0x9201 true] = some m := ⟨_, rfl⟩
  refine ⟨m, hm, (@manager_serves _ ?_ _ (by decide) m hm id fun _ => List.Perm.refl _).1⟩
  simp

end Fpc
