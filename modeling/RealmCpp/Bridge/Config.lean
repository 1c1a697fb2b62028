/-
  RealmCpp.Bridge.Config
  ──────────────────────
  **`realm::config`: a core configuration behind one of two storages.**

  `realm.cpp` stores the core configuration in the object, or behind a
  `shared_ptr`, and every setter writes to it in place.  The sync configuration
  is behind a `shared_ptr` of the core in both builds.

  `open` copies the configuration it is given, and sets the schema of the copy.

  `builds_agree_iff` says for which programs the two builds agree, on documents
  and on configurations.  `aliased_copies` has a program of each kind on which
  they do not.
-/
import RealmCpp.Bridge.Document

namespace RealmCpp.Bridge

open RealmCpp.Library

variable {S : Type}

/-! ## §1. What a configuration holds. -/

/-- `realm::config::schema_mode`. -/
inductive SchemaMode where
  | automatic
  | immutable
  | read_only
  | soft_reset_file
  | hard_reset_file
  | additive_discovered
  | additive_explicit
  | manual
  deriving DecidableEq

/-- `client_reset_mode`. -/
inductive ClientResetMode where
  | manual
  | discard_unsynced
  | recover
  | recover_or_discard
  deriving DecidableEq

/-- A function that the program passes. -/
abbrev Callback := Nat

/-- A scheduler: one of the core, or one that the program implements. -/
inductive Scheduler where
  | realm_core_scheduler (core : Nat)
  | other (scheduler : Nat)
  deriving DecidableEq

/-- A scheduler of the core. -/
inductive CoreScheduler where
  | core (core : Nat)
  | shim (scheduler : Nat)
  deriving DecidableEq

/-- What `set_scheduler` makes of a scheduler: `create_scheduler_shim` wraps those
that are not the core's. -/
def Scheduler.toCore : Scheduler → CoreScheduler
  | realm_core_scheduler core => .core core
  | other scheduler => .shim scheduler

/-- `sync_config::proxy_config`. -/
structure ProxyConfig where
  address : String
  port : Nat
  username_password : Option (String × String)
  deriving DecidableEq

/-- `SyncConfig::ProxyConfig`, of type HTTP. -/
structure CoreProxyConfig where
  address : String
  port : Nat
  deriving DecidableEq

/-- What `set_proxy_config` makes of a proxy: the credentials are left out. -/
def ProxyConfig.toCore (config : ProxyConfig) : CoreProxyConfig := ⟨config.address, config.port⟩

/-- `SyncConfig`. -/
@[ext]
structure SyncConfig where
  custom_http_headers : List (String × String)
  proxy_config : Option CoreProxyConfig
  client_resync_mode : ClientResetMode
  notify_before_client_reset : Option Callback
  notify_after_client_reset : Option Callback
  deriving DecidableEq

/-- `RealmConfig`, with the classes of its schema, and its sync configuration as a
pointer. -/
structure RealmConfig (S : Type) where
  cache : Bool
  path : String
  schema : Option (List S)
  schema_mode : SchemaMode
  scheduler : CoreScheduler
  schema_version : UInt64
  encryption_key : List UInt8
  sync_config : Option Nat
  should_compact_on_launch_function : Option Callback
  force_sync_history : Bool
  deriving DecidableEq

/-- The sync configurations, by their pointers. -/
abbrev SyncConfigs := Nat → SyncConfig

/-- What can be read from a configuration: it, and what it points to. -/
def read (config : RealmConfig S) (sync : SyncConfigs) : RealmConfig S × Option SyncConfig :=
  (config, config.sync_config.map sync)

/-- Whether a configuration reads otherwise after a write to a sync configuration. -/
theorem read_update_iff (config : RealmConfig S) (sync : SyncConfigs) (p : Nat) (x : SyncConfig) :
    read config (Function.update sync p x) = read config sync ↔
      (config.sync_config = some p → x = sync p) := by
  unfold read
  rw [Prod.mk.injEq]
  constructor
  · intro ⟨_, hread⟩ hp
    simpa [hp] using hread
  · intro h
    refine ⟨rfl, ?_⟩
    cases hp : config.sync_config with
    | none => rfl
    | some q =>
      by_cases hq : q = p
      · have hx := h (hq ▸ hp)
        simp [hq, hx]
      · simp [Function.update_of_ne hq]

/-! ## §2. The methods. -/

/-- What a program observes of a configuration. -/
inductive ConfigRead (S : Type) where
  | path (path : String)
  | sync_config (p : Option Nat)
  | scheduler (scheduler : CoreScheduler)
  | schema (schema : Option (List S))
  | client_reset_mode (mode : ClientResetMode)
  | core (config : RealmConfig S)
  /-- A realm is opened with this. -/
  | opened (config : RealmConfig S × Option SyncConfig)
  | logic_error (message : String)
  /-- A null pointer is dereferenced. -/
  | undefined
  deriving DecidableEq

/-- The methods of a configuration; `core` is the conversion to a core one.  The
last two are what the constructors of `db` and `realm` do with it. -/
inductive ConfigMethod (S : Type) where
  | path
  | sync_config
  | scheduler
  | get_schema
  | get_client_reset_mode
  | core
  | set_path (path : String)
  | set_schema (v : List S)
  | set_schema_mode (mode : SchemaMode)
  | set_scheduler (s : Scheduler)
  | set_sync_config (s : Option Nat)
  | set_custom_http_headers (headers : List (String × String))
  | set_proxy_config (config : ProxyConfig)
  | set_schema_version (version : UInt64)
  | set_encryption_key (encryption_key : Vector UInt8 64)
  | should_compact_on_launch (fn : Callback)
  | enable_forced_sync_history
  | set_client_reset_handler (before after : Callback) (mode : ClientResetMode)
  | ensure_schema (schemas : List S)
  | get_shared_realm

namespace ConfigMethod

/-- Write through the pointer to the sync configuration. -/
def writeSync (config : RealmConfig S) (sync : SyncConfigs) (null : ConfigRead S)
    (f : SyncConfig → SyncConfig) : RealmConfig S × SyncConfigs × List (ConfigRead S) :=
  match config.sync_config with
  | some p => (config, Function.update sync p (f (sync p)), [])
  | none => (config, sync, [null])

/-- What a method does. -/
def apply (method : ConfigMethod S) (config : RealmConfig S) (sync : SyncConfigs) :
    RealmConfig S × SyncConfigs × List (ConfigRead S) :=
  match method with
  | path => (config, sync, [.path config.path])
  | sync_config => (config, sync, [.sync_config config.sync_config])
  | scheduler => (config, sync, [.scheduler config.scheduler])
  | get_schema => (config, sync, [.schema config.schema])
  | get_client_reset_mode =>
      match config.sync_config with
      | some p => (config, sync, [.client_reset_mode (sync p).client_resync_mode])
      | none => (config, sync, [.undefined])
  | core => (config, sync, [.core config])
  | set_path p => ({ config with path := p }, sync, [])
  | set_schema v => ({ config with schema := some v }, sync, [])
  | set_schema_mode mode => ({ config with schema_mode := mode }, sync, [])
  | set_scheduler s => ({ config with scheduler := s.toCore }, sync, [])
  | set_sync_config s => ({ config with sync_config := s }, sync, [])
  | set_custom_http_headers headers =>
      writeSync config sync
        (.logic_error "HTTP headers can only be set on a config for a synced Realm.")
        fun c => { c with custom_http_headers := headers }
  | set_proxy_config proxy =>
      writeSync config sync
        (.logic_error "Proxy configuration can only be set on a config for a synced Realm.")
        fun c => { c with proxy_config := some proxy.toCore }
  | set_schema_version version => ({ config with schema_version := version }, sync, [])
  -- the key of 64 bytes is copied into a vector
  | set_encryption_key key => ({ config with encryption_key := key.toList }, sync, [])
  | should_compact_on_launch fn =>
      ({ config with should_compact_on_launch_function := some fn }, sync, [])
  | enable_forced_sync_history => ({ config with force_sync_history := true }, sync, [])
  -- no check, unlike the two setters above
  | set_client_reset_handler before after mode =>
      writeSync config sync .undefined fun c =>
        { c with notify_before_client_reset := some before,
                 notify_after_client_reset := some after,
                 client_resync_mode := mode }
  | ensure_schema schemas =>
      match config.schema with
      | some _ => (config, sync, [])
      | none => ({ config with schema := some schemas }, sync, [])
  | get_shared_realm => (config, sync, [.opened (read config sync)])

/-- The configuration has already what a method writes. -/
def Keeps : ConfigMethod S → RealmConfig S → Prop
  | set_path p, config => config.path = p
  | set_schema v, config => config.schema = some v
  | set_schema_mode mode, config => config.schema_mode = mode
  | set_scheduler s, config => config.scheduler = s.toCore
  | set_sync_config s, config => config.sync_config = s
  | set_schema_version version, config => config.schema_version = version
  | set_encryption_key key, config => config.encryption_key = key.toList
  | should_compact_on_launch fn, config => config.should_compact_on_launch_function = some fn
  | enable_forced_sync_history, config => config.force_sync_history = true
  | ensure_schema _, config => ∃ v, config.schema = some v
  | _, _ => True

/-- The sync configuration has already what a method writes to it. -/
def KeepsSync : ConfigMethod S → SyncConfig → Prop
  | set_custom_http_headers headers, sync => sync.custom_http_headers = headers
  | set_proxy_config proxy, sync => sync.proxy_config = some proxy.toCore
  | set_client_reset_handler before after mode, sync =>
      sync.client_resync_mode = mode ∧ sync.notify_before_client_reset = some before ∧
        sync.notify_after_client_reset = some after
  | _, _ => True

/-- Another configuration does not point to the sync configuration that a method
writes to, unless that has already what is written. -/
def Spares (method : ConfigMethod S) (config : RealmConfig S) (sync : SyncConfigs)
    (other : RealmConfig S) : Prop :=
  ∀ p, config.sync_config = some p → other.sync_config = some p → method.KeepsSync (sync p)

theorem keeps_iff (method : ConfigMethod S) (config : RealmConfig S) (sync : SyncConfigs) :
    method.Keeps config ↔ (method.apply config sync).1 = config := by
  have hwrite : ∀ null f, (writeSync config sync null f).1 = config := by
    intro null f
    unfold writeSync
    split <;> rfl
  cases method with
  | get_client_reset_mode =>
    refine iff_of_true trivial ?_
    unfold apply
    dsimp only
    split <;> rfl
  | set_custom_http_headers _ | set_proxy_config _ | set_client_reset_handler _ _ _ =>
    exact iff_of_true trivial (hwrite _ _)
  | ensure_schema schemas =>
    show (∃ v, config.schema = some v) ↔ _
    unfold apply
    cases hschema : config.schema with
    | some v => simp
    | none =>
      -- a schema where there was none is a change
      have hset : { config with schema := some schemas } ≠ config := by
        intro heq
        have hsome := congrArg RealmConfig.schema heq
        rw [hschema] at hsome
        cases hsome
      simp [hset]
  | _ =>
    cases config
    simp [Keeps, apply, eq_comm]

/-- What a write through the pointer spares. -/
theorem writeSync_spares_iff (config : RealmConfig S) (sync : SyncConfigs) (null : ConfigRead S)
    (f : SyncConfig → SyncConfig) (other : RealmConfig S) :
    read other (writeSync config sync null f).2.1 = read other sync ↔
      ∀ p, config.sync_config = some p → other.sync_config = some p → f (sync p) = sync p := by
  unfold writeSync
  cases hp : config.sync_config with
  | none => simp
  | some p =>
    show read other (Function.update sync p (f (sync p))) = _ ↔ _
    rw [read_update_iff]
    simp [eq_comm]

theorem spares_iff (method : ConfigMethod S) (config : RealmConfig S) (sync : SyncConfigs)
    (other : RealmConfig S) :
    method.Spares config sync other ↔
      read other (method.apply config sync).2.1 = read other sync := by
  unfold Spares
  cases method with
  | set_custom_http_headers _ | set_proxy_config _ | set_client_reset_handler _ _ _ =>
    refine Iff.trans ?_ (writeSync_spares_iff ..).symm
    simp [KeepsSync, SyncConfig.ext_iff, eq_comm]
  | get_client_reset_mode | ensure_schema _ =>
    refine iff_of_true (fun _ _ _ => trivial) ?_
    unfold apply
    dsimp only
    split <;> rfl
  | _ => exact iff_of_true (fun _ _ _ => trivial) rfl

/-- A method as an update. -/
def update (method : ConfigMethod S) : Update (read (S := S)) (ConfigRead S) where
  apply := method.apply
  Keeps config _ := method.Keeps config
  Spares := method.Spares
  keeps_iff := method.keeps_iff
  spares_iff := method.spares_iff

end ConfigMethod

/-! ## §3. Programs. -/

/-- An operation of a program on configurations. -/
inductive ConfigOp (S : Type) where
  | construct (config : RealmConfig S)
  | copy (i : Nat)
  | move (i : Nat)
  | assign (i j : Nat)
  | moveAssign (i j : Nat)
  | destroy (i : Nat)
  | call (i : Nat) (method : ConfigMethod S)
  /-- `open<Ts...>(config)`. -/
  | openDb (i : Nat) (Ts : List S)

namespace ConfigOp

variable (schemas : List S)

/-- How many objects an operation constructs. -/
def objects : ConfigOp S → Nat
  | construct _ | copy _ | move _ => 1
  | openDb _ _ => 2
  | _ => 0

/-- An operation, where `n` objects have been constructed and `db::schemas` are the
classes of the program.  `open` copies its argument, and passes the copy to `db`
by value. -/
def ops (n : Nat) : ConfigOp S → List (Op (read (S := S)) (ConfigRead S))
  | construct config => [.construct config]
  | copy i => [.copy i]
  | move i => [.move i]
  | assign i j => [.assign i j]
  | moveAssign i j => [.moveAssign i j]
  | destroy i => [.destroy i]
  | call i method => [.update i method.update]
  | openDb i Ts =>
      -- the parameter, then that of the constructor, destroyed in the other order
      [.copy i,
       .update n (ConfigMethod.set_schema (if Ts.isEmpty then schemas else Ts)).update,
       .copy n,
       .update (n + 1) (ConfigMethod.ensure_schema schemas).update,
       .update (n + 1) ConfigMethod.get_shared_realm.update,
       .destroy (n + 1),
       .destroy n]

/-- A program on configurations. -/
def program : Nat → List (ConfigOp S) → List (Op (read (S := S)) (ConfigRead S))
  | _, [] => []
  | n, op :: rest => op.ops schemas n ++ program (n + op.objects) rest

end ConfigOp

/-! ## §4. The two builds. -/

/-- **The builds agree on a program exactly if no update is noticed by an object
that shares what it writes to**, and none is of an object that was moved from. -/
theorem builds_agree_iff {B : Type} [Inhabited B] (moved : CoreDocument B → CoreDocument B)
    (movedConfig : RealmConfig S → RealmConfig S) (schemas : List S) (sync : SyncConfigs) :
    (∀ program : List (DocumentOp B),
      Program.Agree (documentMoves moved) () (program.map DocumentOp.op) ↔
        Program.Separated (documentMoves moved) () (program.map DocumentOp.op)) ∧
    ∀ program : List (ConfigOp S),
      Program.Agree ⟨movedConfig, movedConfig⟩ sync (ConfigOp.program schemas 0 program) ↔
        Program.Separated ⟨movedConfig, movedConfig⟩ sync (ConfigOp.program schemas 0 program) :=
  ⟨fun _ => Program.agree_iff_separated _ _ _, fun _ => Program.agree_iff_separated _ _ _⟩

/-- A configuration without a schema. -/
def localConfig : RealmConfig String :=
  ⟨true, "/default.realm", none, .automatic, .shim 0, 0, [], none, none, false⟩

/-- A copy is written to, and the original is read. -/
def insertIntoCopy : List (DocumentOp (Option Int)) :=
  [.construct [], .copy 0, .call 1 (.insert "key" (some 1)), .call 0 .size]

/-- A realm is opened, and its configuration is read. -/
def openConfig : List (ConfigOp String) :=
  [.construct localConfig, .openDb 0 ["Person"], .call 0 .get_schema]

/-- No configuration points to these. -/
def noSync : SyncConfigs := fun _ => ⟨[], none, .manual, none, none⟩

/-- **What is read of the original is not the same in the two builds.** -/
theorem aliased_copies :
    ¬ Program.Agree (documentMoves id) () (insertIntoCopy.map DocumentOp.op) ∧
      ¬ Program.Agree ⟨id, id⟩ noSync (ConfigOp.program ["Person"] 0 openConfig) := by
  constructor
  · intro h
    have hsize : [DocumentRead.size (B := Option Int) 0] = [.size 1] := Option.some.inj h.1
    cases hsize
  · intro h
    have hschema : [ConfigRead.opened (read { localConfig with schema := some ["Person"] } noSync),
        .schema none] = [.opened (read { localConfig with schema := some ["Person"] } noSync),
        .schema (some ["Person"])] := Option.some.inj h.1
    cases hschema

end RealmCpp.Bridge
