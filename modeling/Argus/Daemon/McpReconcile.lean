import Argus.Daemon.McpRegistry

/-!
# The reconcile as a diff

The plan of a reconcile is two lists of configurations and the topology that is to be. The lists
are the difference between the servers that run and that topology, and a second reconcile with
the same document finds none.
-/

namespace Argus

open Keyed (lookup)

variable {current : List DesiredServer} {delivered : List McpServerConfig}
  {server : McpServerConfig} {held : DesiredServer}

/-- What the plan of a reconcile is, for the servers that run and the ones a document delivers. -/
structure ExactDiff (current : List DesiredServer) (delivered : List McpServerConfig)
    (plan : ReconcilePlan) : Prop where
  /-- The servers that run, less those removed, with those connected. -/
  servers : ((current.map DesiredServer.server).filter (fun server => server ∉ plan.toRemove) ++
    plan.toConnect).Perm (plan.desired.map DesiredServer.server)
  names : (plan.desired.map DesiredServer.name).Nodup
  unchanged : ∀ server ∈ current.map DesiredServer.server,
    server ∈ plan.desired.map DesiredServer.server →
      server ∉ plan.toRemove ∧ server ∉ plan.toConnect
  removed : ∀ server ∈ plan.toRemove, ∃ held ∈ current, held.server = server ∧
    (held.fromCloud = true ∨ ∃ other ∈ delivered, other.name = server.name ∧ other ≠ server)
  cloud : ∀ server ∈ delivered, .cloud server ∈ plan.desired
  again : reconcilePlan plan.desired delivered = ⟨[], [], plan.desired⟩

/-! ### What becomes of the held servers -/

/-- A held server is kept with its configuration, or removed for the one that is connected. -/
theorem kept_or_removed (delivered : List McpServerConfig) (held : DesiredServer) :
    (∃ kept, kept.server = held.server ∧
      reconcileHeld delivered held = ⟨none, none, some kept⟩) ∨
    ∃ added : Option McpServerConfig,
      reconcileHeld delivered held = ⟨added, some held.server, added.map .cloud⟩ := by
  rcases reconcileHeld_cases delivered held with ⟨server, -, hplan⟩ | ⟨-, hplan⟩ |
    ⟨-, -, hplan⟩ | ⟨-, -, hplan⟩
  · exact .inr ⟨some server, hplan⟩
  · exact .inl ⟨.cloud held.server, rfl, hplan⟩
  · exact .inr ⟨none, hplan⟩
  · exact .inl ⟨held, rfl, hplan⟩

/-- The held servers that are not removed, with what is connected in the place of others. -/
theorem held_perm (current : List DesiredServer) (delivered : List McpServerConfig) :
    ((current.filter fun held => (reconcileHeld delivered held).remove.isNone).map
        DesiredServer.server ++
      current.filterMap fun held => (reconcileHeld delivered held).connect).Perm
    ((current.filterMap fun held => (reconcileHeld delivered held).keep).map
      DesiredServer.server) := by
  induction current with
  | nil => exact .refl _
  | cons held current ih =>
      rcases kept_or_removed delivered held with ⟨kept, hserver, hplan⟩ | ⟨added, hplan⟩
      · simp only [List.filter_cons, List.filterMap_cons, hplan, Option.isNone_none, if_true,
          List.map_cons, List.cons_append, hserver]
        exact ih.cons held.server
      · simp only [List.filter_cons, List.filterMap_cons, hplan, Option.isNone_some,
          Bool.false_eq_true, if_false]
        cases added with
        | none => exact ih
        | some server => exact List.perm_middle.trans (ih.cons server)

/-- Names are distinct, so a configuration is removed only with its own server. -/
theorem mem_toRemove_server (hcurrent : (current.map DesiredServer.name).Nodup)
    (hheld : held ∈ current) : held.server ∈ (reconcilePlan current delivered).toRemove ↔
      (reconcileHeld delivered held).remove ≠ none := by
  rw [mem_toRemove]
  constructor
  · intro h
    obtain ⟨before, hbefore, hremove⟩ := h
    rcases kept_or_removed delivered before with ⟨kept, -, hplan⟩ | ⟨added, hplan⟩
    · simp [hplan] at hremove
    · have hserver : before.server = held.server := by simpa [hplan] using hremove
      have hname : before.name = held.name := congrArg McpServerConfig.name hserver
      obtain rfl := List.inj_on_of_nodup_map hcurrent hbefore hheld hname
      simp [hremove]
  · intro hremove
    rcases kept_or_removed delivered held with ⟨kept, -, hplan⟩ | ⟨added, hplan⟩
    · simp [hplan] at hremove
    · exact ⟨held, hheld, by rw [hplan]⟩

theorem perm_desired (hcurrent : (current.map DesiredServer.name).Nodup) :
    ((current.map DesiredServer.server).filter
        (fun server => server ∉ (reconcilePlan current delivered).toRemove) ++
      (reconcilePlan current delivered).toConnect).Perm
    ((reconcilePlan current delivered).desired.map DesiredServer.server) := by
  have hfilter : (current.map DesiredServer.server).filter
      (fun server => server ∉ (reconcilePlan current delivered).toRemove) =
      (current.filter fun held => (reconcileHeld delivered held).remove.isNone).map
        DesiredServer.server := by
    rw [List.filter_map]
    refine congrArg _ (List.filter_congr fun held hheld => ?_)
    simp [mem_toRemove_server hcurrent hheld, ← Option.isNone_iff_eq_none]
  have hconnect : (reconcilePlan current delivered).toConnect =
      (current.filterMap fun held => (reconcileHeld delivered held).connect) ++
        delivered.filter fun server => !current.any fun held => held.name == server.name := by
    simp only [reconcilePlan, List.filterMap_map]
    rfl
  rw [hfilter, hconnect, desired_reconcilePlan, List.map_append, List.map_map, ← List.append_assoc]
  refine (held_perm current delivered).append ?_
  rw [Function.comp_def]
  simp

/-! ### The second reconcile -/

theorem cloud_mem_desired (hcurrent : (current.map DesiredServer.name).Nodup)
    (hdelivered : (delivered.map McpServerConfig.name).Nodup) (h : server ∈ delivered) :
    .cloud server ∈ (reconcilePlan current delivered).desired := by
  have hread := lookup_desired hcurrent hdelivered server.name
  rw [Keyed.lookup_of_mem hdelivered h] at hread
  exact Keyed.mem_of_lookup hread

/-- A server of the topology is left as it is by the document that made it so. -/
theorem reconcileHeld_desired (hcurrent : (current.map DesiredServer.name).Nodup)
    (hdelivered : (delivered.map McpServerConfig.name).Nodup)
    (h : held ∈ (reconcilePlan current delivered).desired) :
    reconcileHeld delivered held = ⟨none, none, some held⟩ := by
  have hread := lookup_desired hcurrent hdelivered held.name
  rw [Keyed.lookup_of_mem (nodup_desired hcurrent hdelivered) h] at hread
  cases hl : lookup McpServerConfig.name delivered held.name with
  | some server =>
      obtain rfl : held = .cloud server := by simpa [hl] using hread
      have hfind : delivered.find? (fun other => other.name == server.name) = some server := hl
      simp [reconcileHeld, DesiredServer.name, hfind]
  | none =>
      have hstays : held.fromCloud = false := by
        rw [hl, Option.map_none, Option.none_or] at hread
        simpa [stays] using (Option.filter_eq_some_iff.mp hread.symm).2
      have hfind : delivered.find? (fun other => other.name == held.name) = none := hl
      simp [reconcileHeld, hfind, hstays]

theorem reconcilePlan_desired (hcurrent : (current.map DesiredServer.name).Nodup)
    (hdelivered : (delivered.map McpServerConfig.name).Nodup) :
    reconcilePlan (reconcilePlan current delivered).desired delivered =
      ⟨[], [], (reconcilePlan current delivered).desired⟩ := by
  generalize hplan : (reconcilePlan current delivered).desired = desired
  have hheld (held : DesiredServer) (h : held ∈ desired) :
      reconcileHeld delivered held = ⟨none, none, some held⟩ :=
    reconcileHeld_desired hcurrent hdelivered (hplan ▸ h)
  have hadded : delivered.filter (fun server =>
      !desired.any fun held => held.name == server.name) = [] := by
    refine List.filter_eq_nil_iff.mpr fun server hserver => ?_
    have hmem := cloud_mem_desired hcurrent hdelivered hserver
    rw [hplan] at hmem
    have hany : desired.any (fun held => held.name == server.name) = true :=
      List.any_eq_true.mpr ⟨.cloud server, hmem, beq_self_eq_true _⟩
    simp [hany]
  have hplans : desired.map (reconcileHeld delivered) =
      desired.map fun held => ⟨none, none, some held⟩ := List.map_congr_left hheld
  simp only [reconcilePlan, hplans, hadded, List.filterMap_map, Function.comp_def]
  simp

/-! ### The difference -/

theorem connect_eq_some (h : (reconcileHeld delivered held).connect = some server) :
    server.name = held.name ∧ server ≠ held.server := by
  unfold reconcileHeld at h
  cases hfind : delivered.find? (fun other => other.name == held.name) with
  | none => cases hcloud : held.fromCloud <;> simp [hfind, hcloud] at h
  | some other =>
      by_cases hother : other = held.server
      · simp [hfind, hother] at h
      · obtain rfl : other = server := by simpa [hfind, hother] using h
        exact ⟨by simpa using List.find?_some hfind, hother⟩

theorem remove_eq_some (h : (reconcileHeld delivered held).remove = some server) :
    held.server = server ∧ (held.fromCloud = true ∨
      ∃ other ∈ delivered, other.name = server.name ∧ other ≠ server) := by
  unfold reconcileHeld at h
  cases hfind : delivered.find? (fun other => other.name == held.name) with
  | none =>
      cases hcloud : held.fromCloud with
      | false => simp [hfind, hcloud] at h
      | true => exact ⟨by simpa [hfind, hcloud] using h, .inl rfl⟩
  | some other =>
      by_cases hother : other = held.server
      · simp [hfind, hother] at h
      · obtain rfl : held.server = server := by simpa [hfind, hother] using h
        have hname : other.name = held.name := by simpa using List.find?_some hfind
        exact ⟨rfl, .inr ⟨other, List.mem_of_find?_eq_some hfind, hname, hother⟩⟩

/-- What is connected does not run yet. -/
theorem not_mem_of_toConnect (hcurrent : (current.map DesiredServer.name).Nodup)
    (h : server ∈ (reconcilePlan current delivered).toConnect) :
    server ∉ current.map DesiredServer.server := by
  intro hmem
  obtain ⟨held, hheld, rfl⟩ := List.mem_map.mp hmem
  rcases mem_toConnect.mp h with ⟨before, hbefore, hconnect⟩ | ⟨-, hnew⟩
  · obtain ⟨hname, hne⟩ := connect_eq_some hconnect
    obtain rfl := List.inj_on_of_nodup_map hcurrent hbefore hheld hname.symm
    exact hne rfl
  · exact hnew held hheld rfl

/-- For names that are distinct on both sides, a reconcile is the exact difference. -/
theorem reconcile_exact (hcurrent : (current.map DesiredServer.name).Nodup)
    (hdelivered : (delivered.map McpServerConfig.name).Nodup) :
    ExactDiff current delivered (reconcilePlan current delivered) where
  servers := perm_desired hcurrent
  names := nodup_desired hcurrent hdelivered
  unchanged := fun server hserver hdesired => by
    have hconnect : server ∉ (reconcilePlan current delivered).toConnect :=
      fun h => not_mem_of_toConnect hcurrent h hserver
    have hside := (perm_desired hcurrent).mem_iff.mpr hdesired
    rw [List.mem_append, or_iff_left hconnect, List.mem_filter] at hside
    exact ⟨by simpa using hside.2, hconnect⟩
  removed := fun server hserver => by
    obtain ⟨held, hheld, hremove⟩ := mem_toRemove.mp hserver
    exact ⟨held, hheld, remove_eq_some hremove⟩
  cloud := fun _ h => cloud_mem_desired hcurrent hdelivered h
  again := reconcilePlan_desired hcurrent hdelivered

/-- A file's server that a document declares with another command. -/
theorem reconcile_exact_redeclared :
    ExactDiff [.file (metricsServer "/bin/file" true)] [metricsServer "/bin/cloud" true]
      ⟨[metricsServer "/bin/cloud" true], [metricsServer "/bin/file" true],
        [.cloud (metricsServer "/bin/cloud" true)]⟩ :=
  reconcile_exact (by decide) (by decide)

end Argus
