import RustFactory.Sandbox.Docker

/-!
# Sandboxes: the daemon behind the command line

The adapter relies on a daemon that registers the names of containers in one step and reports
truthfully; `TruthfulDaemon` says what of this the concurrent starts need.  `Daemon` is a daemon of
this kind that only fails where it is told to.
-/

namespace RustFactory.Sandbox

open Lib

/-! ## Containers -/

structure Container where
  dockerId : String
  name : String
  owner : String
  tenant : String
  sandbox : String
  running : Bool
  canonical : canonicalDockerId dockerId

/-- The line that `docker inspect` prints for the format of the adapter. -/
def Container.report (container : Container) : String :=
  container.dockerId ++ "|" ++ container.owner ++ "|" ++ container.tenant ++ "|" ++
    container.sandbox ++ "|" ++ (if container.running then "true" else "false") ++ "\n"

/-- There is a container of the name. -/
def Has (containers : List Container) (name : String) : Prop :=
  ∃ container ∈ containers, container.name = name

/-- No two containers have the same name. -/
def Registered (containers : List Container) : Prop := (containers.map Container.name).Nodup

/-- The containers are those there were, or there is one more, of a name that was free. -/
inductive Registers (name : String) (before : List Container) : List Container → Prop
  | same : Registers name before before
  | created (container : Container) : container.name = name → ¬Has before name →
      Registers name before (container :: before)

/-- What the starts rely on of a daemon with states `δ`; `χ` are its choices, that is what else may
happen to a command.  A `docker run` registers its name and creates the container in one step, or it
changes nothing; if it reports a new container there is one.  An inspection changes nothing, and it
does not report a container that is not there.  Only `docker rm` removes containers. -/
structure TruthfulDaemon {δ χ : Type}
    (exec : δ → χ → CliCommand → Except SandboxError CliOutput × δ)
    (containers : δ → List Container) : Prop where
  run_registers (daemon : δ) (choice : χ) (options : RunOptions) :
    Registers options.name (containers daemon) (containers (exec daemon choice (.run options)).2)
  run_succeeded {daemon : δ} {choice : χ} {options : RunOptions} :
    runSucceeded (exec daemon choice (.run options)).1 →
      Has (containers (exec daemon choice (.run options)).2) options.name
  inspect_keeps (daemon : δ) (choice : χ) (name : String) :
    containers (exec daemon choice (.inspect name)).2 = containers daemon
  inspect_absent {daemon : δ} {choice : χ} {name : String} {output : CliOutput} :
    ¬Has (containers daemon) name → (exec daemon choice (.inspect name)).1 = .ok output →
      output.code ≠ 0
  exec_keeps (daemon : δ) (choice : χ) (options : ExecOptions) :
    containers (exec daemon choice (.exec options)).2 = containers daemon
  rm_removes (daemon : δ) (choice : χ) (dockerId : String) :
    (containers (exec daemon choice (.rm dockerId)).2).Sublist (containers daemon)

/-- The containers of before are kept, and there are no other ones but of the name. -/
structure Grown (name : String) (before after : List Container) : Prop where
  kept : ∀ container ∈ before, container ∈ after
  created : ∀ container ∈ after, container ∈ before ∨ container.name = name

theorem Grown.refl (name : String) (containers : List Container) :
    Grown name containers containers :=
  ⟨fun _ h => h, fun _ h => Or.inl h⟩

theorem Grown.trans {name : String} {a b c : List Container} (hab : Grown name a b)
    (hbc : Grown name b c) : Grown name a c where
  kept container h := hbc.kept container (hab.kept container h)
  created container h := (hbc.created container h).elim (hab.created container) Or.inr

theorem Grown.has {name : String} {before after : List Container} (h : Grown name before after)
    (hhas : Has before name) : Has after name := by
  obtain ⟨container, hmem, hname⟩ := hhas
  exact ⟨container, h.kept container hmem, hname⟩

theorem Registers.grown {name : String} {before after : List Container}
    (h : Registers name before after) : Grown name before after := by
  cases h with
  | same => exact Grown.refl _ _
  | created container hname _ =>
    refine ⟨fun other hother => List.mem_cons_of_mem _ hother, fun other hother => ?_⟩
    rcases List.mem_cons.mp hother with rfl | hother
    · exact Or.inr hname
    · exact Or.inl hother

theorem Registers.registered {name : String} {before after : List Container}
    (h : Registers name before after) (hbefore : Registered before) : Registered after := by
  cases h with
  | same => exact hbefore
  | created container hname hfree =>
    refine List.nodup_cons.mpr ⟨fun hmem => hfree ?_, hbefore⟩
    obtain ⟨other, hother, heq⟩ := List.mem_map.mp hmem
    exact ⟨other, hother, heq.trans hname⟩

theorem Registered.length_filter_le {containers : List Container} (h : Registered containers)
    (name : String) : (containers.filter fun container => container.name = name).length ≤ 1 := by
  have hall : (containers.filter fun container => container.name = name).map Container.name =
      List.replicate (containers.filter fun container => container.name = name).length name := by
    rw [List.eq_replicate_iff, List.length_map]
    refine ⟨rfl, fun other hother => ?_⟩
    obtain ⟨container, hcontainer, rfl⟩ := List.mem_map.mp hother
    exact of_decide_eq_true (List.mem_filter.mp hcontainer).2
  have hnodup := h.sublist
    ((List.filter_sublist (p := fun container => decide (container.name = name))).map
      Container.name)
  rw [hall] at hnodup
  exact List.nodup_replicate.mp hnodup

section Truthful

variable {δ χ : Type} {exec : δ → χ → CliCommand → Except SandboxError CliOutput × δ}
  {containers : δ → List Container}

/-- Every command keeps the names apart. -/
theorem TruthfulDaemon.exec_registered (h : TruthfulDaemon exec containers) {daemon : δ}
    (hregistered : Registered (containers daemon)) (choice : χ) (command : CliCommand) :
    Registered (containers (exec daemon choice command).2) := by
  cases command with
  | inspect name => rwa [h.inspect_keeps]
  | run options => exact (h.run_registers daemon choice options).registered hregistered
  | rm dockerId => exact hregistered.sublist ((h.rm_removes daemon choice dockerId).map _)
  | exec options => rwa [h.exec_keeps]

theorem TruthfulDaemon.inspect_none (h : TruthfulDaemon exec containers) {daemon : δ}
    {name : String} (habsent : ¬Has (containers daemon) name) (choice : χ)
    (sandbox : DockerSandbox) (request : TargetRequest) (owned : OwnedContainer) :
    (exec daemon choice (.inspect name)).1 >>= readOwned sandbox request ≠ .ok (some owned) := by
  cases hanswer : (exec daemon choice (.inspect name)).1 with
  | error e => rintro ⟨⟩
  | ok output =>
    rw [ok_bind]
    unfold readOwned
    rw [if_pos (h.inspect_absent habsent hanswer)]
    split_ifs
    · rintro ⟨⟩
    · rintro ⟨⟩

end Truthful

/-! ## What an inspection reads -/

/-- No character is the delimiter of a report or white space. -/
def Plain (s : String) : Prop := ∀ c ∈ s.toList, c ≠ '|' ∧ ¬isWhitespace c

/-- The bytes of identifiers. -/
def isNameByte (byte : UInt8) : Bool :=
  isAsciiLowercase byte || isAsciiDigit byte || byte == 45 || byte == 95

theorem plain_of_utf8 {s : String} (h : ∀ byte ∈ utf8 s, isNameByte byte) : Plain s := by
  have hall : ∀ n : Fin 256, isNameByte (UInt8.ofNat n) →
      n.val < 128 ∧ Char.ofNat n ≠ '|' ∧ ¬isWhitespace (Char.ofNat n) := by
    decide +kernel
  exact forall_char_of_utf8 (P := fun c => c ≠ '|' ∧ ¬isWhitespace c)
    (fun n hn => hall ⟨n, hn⟩) h

theorem isNameByte_of_isLowerHex {byte : UInt8} (h : isLowerHex byte) : isNameByte byte := by
  have hall : ∀ n : Fin 256, isLowerHex (UInt8.ofNat n) → isNameByte (UInt8.ofNat n) := by
    decide +kernel
  have hbyte := hall ⟨byte.toNat, byte.toNat_lt⟩
  simp only [UInt8.ofNat_toNat] at hbyte
  exact hbyte h

theorem plain_of_isLowerHex {s : String} (h : (utf8 s).all isLowerHex) : Plain s :=
  plain_of_utf8 fun byte hbyte => isNameByte_of_isLowerHex (List.all_eq_true.mp h byte hbyte)

theorem DockerSandbox.plain_owner (sandbox : DockerSandbox) : Plain sandbox.owner := by
  have h := sandbox.valid
  unfold validOwner at h
  rw [Bool.and_eq_true] at h
  exact plain_of_isLowerHex h.2

theorem plain_of_canonicalDockerId {dockerId : String} (h : canonicalDockerId dockerId) :
    Plain dockerId := by
  unfold canonicalDockerId at h
  rw [Bool.and_eq_true] at h
  exact plain_of_isLowerHex h.2

theorem LogicalId.plain (id : LogicalId) : Plain id.asStr := by
  have h := id.valid
  unfold logicalId at h
  rw [Bool.and_eq_true] at h
  refine plain_of_utf8 ?_
  cases hbytes : utf8 id.asStr with
  | nil => nofun
  | cons first rest =>
    rw [hbytes] at h
    have hname := h.2
    simp only [Bool.and_eq_true, List.all_eq_true] at hname
    refine List.forall_mem_cons.mpr ⟨?_, hname.2⟩
    unfold isNameByte
    rw [hname.1, Bool.true_or, Bool.true_or]

theorem SandboxId.plain (id : SandboxId) : Plain id.asStr := by
  have h := id.valid
  unfold Sandbox.sandboxId at h
  rw [Bool.and_eq_true, Bool.and_eq_true] at h
  obtain ⟨⟨-, hstart⟩, hhex⟩ := h
  obtain ⟨rest, hrest⟩ := List.isPrefixOf_iff_prefix.mp hstart
  rw [← hrest] at hhex
  refine plain_of_utf8 fun byte hbyte => ?_
  rw [← hrest] at hbyte
  rcases List.mem_append.mp hbyte with hbyte | hbyte
  · have hall : ∀ byte ∈ utf8 "sbx-", isNameByte byte := by decide +kernel
    exact hall byte hbyte
  · exact isNameByte_of_isLowerHex (List.all_eq_true.mp hhex byte hbyte)

theorem not_isWhitespace_of_mem_intercalate {fields : List String}
    (h : ∀ field ∈ fields, Plain field) :
    ∀ c ∈ ((String.singleton '|').intercalate fields).toList, ¬isWhitespace c := by
  induction fields with
  | nil => simp
  | cons field fields ih =>
    rw [List.forall_mem_cons] at h
    by_cases hne : fields = []
    · subst hne
      rw [String.intercalate_singleton]
      exact fun c hc => (h.1 c hc).2
    · rw [String.intercalate_cons_of_ne_nil hne, String.toList_append, String.toList_append,
        String.toList_singleton, List.forall_mem_append, List.forall_mem_append]
      exact ⟨⟨fun c hc => (h.1 c hc).2, by simp [isWhitespace]⟩, ih h.2⟩

/-- The labels that `docker run` gives a container of the request. -/
structure Container.Owned (container : Container) (sandbox : DockerSandbox)
    (request : TargetRequest) : Prop where
  owner : container.owner = sandbox.owner
  tenant : container.tenant = request.context.tenantId.asStr
  sandbox : container.sandbox = request.sandboxId.asStr

/-- The adapter reads the report of its own container. -/
theorem readOwned_report {container : Container} {sandbox : DockerSandbox}
    {request : TargetRequest} (h : container.Owned sandbox request) :
    readOwned sandbox request ⟨0, container.report, ""⟩ =
      .ok (some ⟨container.dockerId, container.running⟩) := by
  let state := if container.running then "true" else "false"
  let fields := [container.dockerId, container.owner, container.tenant, container.sandbox, state]
  have hplain : ∀ field ∈ fields, Plain field := by
    have hstate : Plain state := by
      have htrue : Plain "true" := plain_of_utf8 (by decide +kernel)
      have hfalse : Plain "false" := plain_of_utf8 (by decide +kernel)
      simp only [state]
      split_ifs
      · exact htrue
      · exact hfalse
    have howner : Plain container.owner := h.owner ▸ sandbox.plain_owner
    have htenant : Plain container.tenant := h.tenant ▸ request.context.tenantId.plain
    have hsandbox : Plain container.sandbox := h.sandbox ▸ request.sandboxId.plain
    simp only [fields, List.forall_mem_cons]
    exact ⟨plain_of_canonicalDockerId container.canonical, howner, htenant, hsandbox, hstate, nofun⟩
  have hreport : container.report = (String.singleton '|').intercalate fields ++ "\n" := by
    simp only [fields, String.intercalate_cons_cons, String.intercalate_singleton,
      String.append_assoc]
    unfold Container.report
    simp only [String.append_assoc]
    rfl
  have htrim : trim container.report = (String.singleton '|').intercalate fields := by
    rw [hreport, trim_append_of_forall (by simp [isWhitespace]), trim_of_forall]
    exact not_isWhitespace_of_mem_intercalate hplain
  unfold readOwned
  rw [if_neg (not_not.mpr rfl), htrim, split_intercalate (List.cons_ne_nil _ _)
    fun field hfield hmem => (hplain field hfield '|' hmem).1 rfl]
  have hlabels : (!canonicalDockerId container.dockerId || container.owner ≠ sandbox.owner ||
      container.tenant ≠ request.context.tenantId.asStr ||
      container.sandbox ≠ request.sandboxId.asStr) = false := by
    simp [container.canonical, h.owner, h.tenant, h.sandbox]
  simp only [hlabels, Bool.false_eq_true, if_false, state]
  by_cases hrunning : container.running
  · simp [hrunning]
  · simp [hrunning]

/-! ## A daemon -/

/-- The containers of a daemon; no two have the same name. -/
structure Daemon where
  containers : List Container
  names : Registered containers

def Daemon.find (daemon : Daemon) (name : String) : Option Container :=
  daemon.containers.find? fun container => container.name = name

/-- What happens to a `docker run`: it creates a container of a new id, or it fails by itself, with an
error of the command line or with an exit code. -/
inductive Choice where
  | create (dockerId : String)
  | fail (answer : Except SandboxError String)

theorem Daemon.find_eq_none {daemon : Daemon} {name : String} :
    daemon.find name = none ↔ ¬Has daemon.containers name := by
  unfold Daemon.find Has
  simp only [List.find?_eq_none, decide_eq_true_eq, not_exists, not_and]

theorem registered_create {daemon : Daemon} {container : Container}
    (h : daemon.find container.name = none) : Registered (container :: daemon.containers) :=
  (Registers.created container rfl (Daemon.find_eq_none.mp h)).registered daemon.names

theorem registered_remove (daemon : Daemon) (dockerId : String) :
    Registered (daemon.containers.filter fun container => container.dockerId ≠ dockerId) :=
  daemon.names.sublist (List.filter_sublist.map _)

/-- A command, as the daemon executes it. -/
def Daemon.exec (daemon : Daemon) (choice : Choice) :
    CliCommand → Except SandboxError CliOutput × Daemon
  | .inspect name =>
    match daemon.find name with
    | some container => (.ok ⟨0, container.report, ""⟩, daemon)
    | none => (.ok ⟨1, "", "Error: No such container: " ++ name⟩, daemon)
  | .run options =>
    match choice with
    | .fail (.error e) => (.error e, daemon)
    | .fail (.ok stderr) => (.ok ⟨125, "", stderr⟩, daemon)
    | .create dockerId =>
      if h : daemon.find options.name = none ∧ canonicalDockerId dockerId then
        (.ok ⟨0, dockerId ++ "\n", ""⟩,
          ⟨⟨dockerId, options.name, options.owner, options.tenant, options.sandbox, true, h.2⟩ ::
            daemon.containers, registered_create h.1⟩)
      else (.ok ⟨125, "", "Error response from daemon: Conflict."⟩, daemon)
  | .rm dockerId =>
    if daemon.containers.any fun container => container.dockerId = dockerId then
      (.ok ⟨0, dockerId ++ "\n", ""⟩,
        ⟨daemon.containers.filter fun container => container.dockerId ≠ dockerId,
          registered_remove daemon dockerId⟩)
    else (.ok ⟨1, "", "Error: No such container: " ++ dockerId⟩, daemon)
  | .exec options =>
    if daemon.containers.any fun container => container.dockerId = options.dockerId then
      (.ok ⟨0, "", ""⟩, daemon)
    else (.ok ⟨1, "", "Error: No such container: " ++ options.dockerId⟩, daemon)

theorem exec_inspect (daemon : Daemon) (choice : Choice) (name : String) :
    (daemon.exec choice (.inspect name)).2 = daemon := by
  cases hfind : daemon.find name with
  | none => simp only [Daemon.exec, hfind]
  | some container => simp only [Daemon.exec, hfind]

theorem confirmedNotFound_message (name : String) :
    confirmedNotFound ⟨1, "", "Error: No such container: " ++ name⟩ = true := by
  unfold confirmedNotFound
  rw [List.any_eq_true]
  refine ⟨"No such container: ".toList ++ name.toList, ?_, ?_⟩
  · rw [List.mem_tails, String.toList_append]
    exact ⟨"Error: ".toList, by simp⟩
  · rw [List.isPrefixOf_iff_prefix]
    exact ⟨": ".toList ++ name.toList, by simp⟩

theorem exec_inspect_none {daemon : Daemon} {name : String} (h : daemon.find name = none)
    (choice : Choice) (sandbox : DockerSandbox) (request : TargetRequest) :
    (daemon.exec choice (.inspect name)).1 >>= readOwned sandbox request = .ok none := by
  unfold Daemon.exec
  simp only [h, ok_bind]
  unfold readOwned
  rw [if_pos (show (1 : ℤ) ≠ 0 by decide), if_pos (confirmedNotFound_message name)]

theorem exec_run_fail (daemon : Daemon) (answer : Except SandboxError String)
    (options : RunOptions) :
    (daemon.exec (.fail answer) (.run options)).2 = daemon ∧
      ¬runSucceeded (daemon.exec (.fail answer) (.run options)).1 := by
  cases answer with
  | error e => exact ⟨rfl, nofun⟩
  | ok stderr => exact ⟨rfl, nofun⟩

theorem runSucceeded_create {dockerId : String} (h : canonicalDockerId dockerId) :
    runSucceeded (.ok ⟨0, dockerId ++ "\n", ""⟩) := by
  have hplain : Plain dockerId := plain_of_canonicalDockerId h
  have htrim : trim (dockerId ++ "\n") = dockerId := by
    rw [trim_append_of_forall (by simp [isWhitespace]), trim_of_forall]
    exact fun c hc => (hplain c hc).2
  unfold runSucceeded
  dsimp only
  rw [htrim, h]
  rfl

/-- `docker run` creates a container with the labels of the request. -/
theorem exec_run_create {daemon : Daemon} {options : RunOptions}
    (hfind : daemon.find options.name = none) {dockerId : String}
    (hid : canonicalDockerId dockerId) :
    runSucceeded (daemon.exec (.create dockerId) (.run options)).1 ∧
      ∃ container,
        (daemon.exec (.create dockerId) (.run options)).2.find options.name = some container ∧
        container.owner = options.owner ∧ container.tenant = options.tenant ∧
        container.sandbox = options.sandbox := by
  let container : Container :=
    ⟨dockerId, options.name, options.owner, options.tenant, options.sandbox, true, hid⟩
  have hexec : daemon.exec (.create dockerId) (.run options) =
      (.ok ⟨0, dockerId ++ "\n", ""⟩, ⟨container :: daemon.containers, registered_create hfind⟩) :=
    dif_pos ⟨hfind, hid⟩
  rw [hexec]
  exact ⟨runSucceeded_create hid, container, List.find?_cons_of_pos (decide_eq_true rfl), rfl, rfl,
    rfl⟩

theorem Daemon.eq_of_find {daemon : Daemon} {name : String} {container other : Container}
    (h : daemon.find name = some container) (hmem : other ∈ daemon.containers)
    (hname : other.name = name) : other = container := by
  unfold Daemon.find at h
  have hfound : container.name = name := by simpa using List.find?_some h
  exact List.inj_on_of_nodup_map daemon.names hmem (List.mem_of_find?_eq_some h)
    (hname.trans hfound.symm)

theorem exec_rm {daemon : Daemon} {name : String} {container : Container}
    (h : daemon.find name = some container) (choice : Choice) :
    (daemon.exec choice (.rm container.dockerId)).2.find name = none := by
  have hmem := List.mem_of_find?_eq_some h
  have hany : daemon.containers.any fun other => other.dockerId = container.dockerId :=
    List.any_eq_true.mpr ⟨container, hmem, decide_eq_true rfl⟩
  have hexec : (daemon.exec choice (.rm container.dockerId)).2 =
      ⟨daemon.containers.filter fun other => other.dockerId ≠ container.dockerId,
        registered_remove daemon container.dockerId⟩ := by
    unfold Daemon.exec
    dsimp only
    rw [if_pos hany]
  rw [hexec, Daemon.find_eq_none]
  rintro ⟨other, hother, hname⟩
  obtain ⟨hother, hne⟩ := List.mem_filter.mp hother
  rw [Daemon.eq_of_find h hother hname] at hne
  exact of_decide_eq_true hne rfl

/-- This daemon is one that the starts can rely on. -/
theorem Daemon.truthful : TruthfulDaemon Daemon.exec Daemon.containers where
  run_registers daemon choice options := by
    unfold Daemon.exec
    cases choice with
    | fail answer =>
      cases answer with
      | error e => exact .same
      | ok stderr => exact .same
    | create dockerId =>
      dsimp only
      split_ifs with hcreate
      · exact .created _ rfl (Daemon.find_eq_none.mp hcreate.1)
      · exact .same
  run_succeeded {daemon choice options} h := by
    unfold Daemon.exec at h ⊢
    cases choice with
    | fail answer =>
      cases answer with
      | error e => cases h
      | ok stderr => cases h
    | create dockerId =>
      dsimp only at h ⊢
      split_ifs at h ⊢ with hcreate
      · exact ⟨_, List.mem_cons_self, rfl⟩
      · cases h
  inspect_keeps daemon choice name := congrArg Daemon.containers (exec_inspect daemon choice name)
  inspect_absent {daemon choice name output} habsent hanswer := by
    unfold Daemon.exec at hanswer
    rw [← Daemon.find_eq_none] at habsent
    simp only [habsent] at hanswer
    cases hanswer
    exact one_ne_zero
  exec_keeps daemon choice options := by
    unfold Daemon.exec
    dsimp only
    split_ifs
    · rfl
    · rfl
  rm_removes daemon choice dockerId := by
    unfold Daemon.exec
    dsimp only
    split_ifs
    · exact List.filter_sublist
    · exact List.Sublist.refl _

end RustFactory.Sandbox
