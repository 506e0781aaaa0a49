import Eef.Node.Authentication
import Eef.Node.Listening

/-!
# The coordinator's configuration

`config.rs`: a configuration is the defaults with the saved file merged over them, and an edit
reads the file, changes the value and saves the whole of it. What the credential commands need
is that the authentication policy they write is the one the next reading finds
(`policyOf_saved`): the defaults have no such member, and a merged section has each key once.

A file is the value the YAML library reads from it. `Environment` holds the sections of the
default file besides `node`, and the checks of members that nothing here reads.
-/

namespace Eef.Coordinator.Config

open Eef.Lib
open Eef.Node.Authentication
open Eef.Node.Listening (assign get?_assign)

mutual
/-- `deep_merge`. -/
def deepMerge : Json → Json → Json
  | .obj base, .obj overlay => .obj (mergeFields base overlay)
  | _, .null => .null
  | _, .bool b => .bool b
  | _, .num n => .num n
  | _, .str s => .str s
  | _, .arr items => .arr items
  | _, .obj overlay => .obj overlay

/-- Its loop over the entries of an overlay. -/
def mergeFields : List (String × Json) → List (String × Json) → List (String × Json)
  | base, [] => base
  | base, (key, value) :: rest =>
    mergeFields (Assoc.set key (deepMerge ((base.lookup key).getD .null) value) base) rest
end

/-- What the environment brings to the configuration. -/
structure Environment where
  sections : List (String × Json)
  unique : (("node" :: sections.map Prod.fst)).Nodup
  /-- `validate_ui_preference`, the settings of setup model checks, `SchedulingPolicy::parse`. -/
  loadChecks : Json → Result Unit
  /-- These and the other checks of `save_unlocked`. -/
  saveChecks : Json → Result Unit

/-- The section `node` of the default file. -/
def defaultNode : List (String × Json) := [("host", .str "0.0.0.0"), ("port", .nat 51335)]

/-- The default file. -/
def Environment.defaults (env : Environment) : List (String × Json) :=
  ("node", .obj defaultNode) :: env.sections

/-- The value of a file that was read. -/
def Environment.merged (env : Environment) (file : Json) : Json :=
  deepMerge (.obj env.defaults) file

/-- `pointer("/node/authentication")`. -/
def authentication (value : Json) : Option Json :=
  (value.get? "node").bind (·.get? "authentication")

variable [Tls]

/-- `Config::load`. -/
def Environment.load (env : Environment) (file : Option Json) : Result Json :=
  match file with
  | some loaded => do
    ensure loaded.isObject "config must contain a YAML mapping"
    let value := env.merged loaded
    env.loadChecks value
    let _ ← AuthenticationPolicy.parse (authentication value)
    return value
  | none => do
    let value := .obj env.defaults
    env.loadChecks value
    let _ ← AuthenticationPolicy.parse (authentication value)
    return value

/-- `save_unlocked`, up to the write. -/
def Environment.validateSaved (env : Environment) (value : Json) : Result Unit := do
  ensure value.isObject "configuration must be a JSON/YAML object"
  let _ ← AuthenticationPolicy.parse (authentication value)
  each (fun section_ => ensure ((value.get? section_).all Json.isObject)
      (section_ ++ " settings must be an object"))
    ["web", "node", "models", "update", "python", "identity", "jobs"]
  env.saveChecks value

/-- `edit_for_restart`: the file after it, and the result. A write replaces the file or fails
without effect. -/
def Environment.editForRestart {α : Type} (env : Environment) (file : Option Json)
    (write : Result Unit) (edit : Json → Result (α × Json × Bool)) : Option Json × Result α :=
  match file with
  | none =>
    (none, .error "saved configuration is missing; refusing to replace it with defaults")
  | some saved =>
    match env.load (some saved) >>= edit with
    | .error e => (file, .error e)
    | .ok (result, value, changed) =>
      if changed then
        match env.validateSaved value >>= fun _ => write with
        | .ok () => (some value, .ok result)
        | .error e => (file, .error e)
      else (file, .ok result)

/-- `value["node"]["authentication"] = v`. -/
def setAuthentication (value v : Json) : Result Json := do
  let node ← assign (value.index "node") "authentication" v
  assign value "node" node

/-- The policy of a file. -/
def Environment.policyOf (env : Environment) (file : Json) : Result AuthenticationPolicy :=
  AuthenticationPolicy.parse (authentication (env.merged file))

/-! ## Reading back what was saved -/

omit [Tls] in
theorem set_keys (k : String) (v : Json) (m : List (String × Json)) :
    ∀ a ∈ (Assoc.set k v m).map Prod.fst, a = k ∨ a ∈ m.map Prod.fst := by
  induction m with
  | nil => simp [Assoc.set]
  | cons e m ih =>
    obtain ⟨a, b⟩ := e
    intro c hc
    unfold Assoc.set at hc
    split at hc
    · rename_i hak
      simp only [List.map_cons, List.mem_cons] at hc ⊢
      exact hc.imp id Or.inr
    · simp only [List.map_cons, List.mem_cons] at hc ⊢
      rcases hc with rfl | hc
      · exact Or.inr (Or.inl rfl)
      · exact (ih c hc).imp id Or.inr

omit [Tls] in
theorem set_nodup (k : String) (v : Json) {m : List (String × Json)}
    (h : (m.map Prod.fst).Nodup) : ((Assoc.set k v m).map Prod.fst).Nodup := by
  induction m with
  | nil => simp [Assoc.set]
  | cons e m ih =>
    obtain ⟨a, b⟩ := e
    simp only [List.map_cons, List.nodup_cons] at h
    unfold Assoc.set
    split
    · rename_i hak
      subst hak
      simp only [List.map_cons, List.nodup_cons]
      exact h
    · rename_i hak
      simp only [List.map_cons, List.nodup_cons]
      refine ⟨fun hmem => ?_, ih h.2⟩
      rcases set_keys k v m a hmem with rfl | hmem
      · exact hak rfl
      · exact h.1 hmem

omit [Tls] in
theorem deepMerge_obj (base overlay : List (String × Json)) :
    deepMerge (.obj base) (.obj overlay) = .obj (mergeFields base overlay) := by
  unfold deepMerge
  rfl

omit [Tls] in
theorem deepMerge_null (v : Json) : deepMerge .null v = v := by
  cases v <;> rfl

omit [Tls] in
/-- A merged section has each key once. -/
theorem mergeFields_nodup (overlay : List (String × Json)) :
    ∀ base : List (String × Json), (base.map Prod.fst).Nodup →
      ((mergeFields base overlay).map Prod.fst).Nodup := by
  induction overlay with
  | nil =>
    intro base h
    unfold mergeFields
    exact h
  | cons e overlay ih =>
    obtain ⟨key, value⟩ := e
    intro base h
    unfold mergeFields
    exact ih _ (set_nodup key _ h)

omit [Tls] in
theorem mergeFields_lookup (overlay : List (String × Json)) (k : String) :
    ∀ base : List (String × Json), (overlay.map Prod.fst).Nodup →
      (mergeFields base overlay).lookup k =
        match overlay.lookup k with
        | none => base.lookup k
        | some v => some (deepMerge ((base.lookup k).getD .null) v) := by
  induction overlay with
  | nil =>
    intro base _
    unfold mergeFields
    rfl
  | cons e overlay ih =>
    obtain ⟨key, value⟩ := e
    intro base h
    simp only [List.map_cons, List.nodup_cons] at h
    unfold mergeFields
    rw [ih _ h.2, Assoc.lookup_cons]
    by_cases hk : k = key
    · subst hk
      have hnone : overlay.lookup k = none := by
        by_contra hne
        exact h.1 (Assoc.lookup_isSome (Option.isSome_iff_ne_none.mpr hne))
      rw [hnone, if_pos rfl]
      simp only [Assoc.lookup_set, if_pos]
    · rw [if_neg hk]
      simp only [Assoc.lookup_set, if_neg hk]

/-- A value whose sections have each key once, as far as the policy goes. -/
structure Shaped (value : Json) : Prop where
  top : ∀ fields, value = .obj fields → (fields.map Prod.fst).Nodup
  node : ∀ fields, value.get? "node" = some (.obj fields) → (fields.map Prod.fst).Nodup

omit [Tls] in
theorem merged_node (env : Environment) {fields : List (String × Json)}
    (h : (fields.map Prod.fst).Nodup) :
    (env.merged (.obj fields)).get? "node" =
      match fields.lookup "node" with
      | none => some (.obj defaultNode)
      | some v => some (deepMerge (.obj defaultNode) v) := by
  have hdefault : env.defaults.lookup "node" = some (.obj defaultNode) := by
    simp [Environment.defaults]
  rw [Environment.merged, deepMerge_obj, Json.get?, mergeFields_lookup _ _ _ h, hdefault]
  rfl

omit [Tls] in
theorem deepMerge_node_nodup {v : Json} {fields : List (String × Json)}
    (hv : ∀ overlay, v = .obj overlay → (overlay.map Prod.fst).Nodup)
    (h : deepMerge (.obj defaultNode) v = .obj fields) : (fields.map Prod.fst).Nodup := by
  cases v with
  | obj overlay =>
    rw [deepMerge_obj] at h
    cases h
    exact mergeFields_nodup overlay _ (by decide)
  | _ => simp [deepMerge] at h

omit [Tls] in
/-- Merging keeps each key once. -/
theorem merged_shaped (env : Environment) {fields : List (String × Json)}
    (h : Shaped (.obj fields)) : Shaped (env.merged (.obj fields)) := by
  have htop := h.top fields rfl
  refine ⟨fun merged hmerged => ?_, fun node hnode => ?_⟩
  · rw [Environment.merged, deepMerge_obj] at hmerged
    cases hmerged
    exact mergeFields_nodup fields _ env.unique
  · rw [merged_node env htop] at hnode
    split at hnode
    · cases hnode
      decide
    · rename_i v hv
      rw [Option.some.injEq] at hnode
      refine deepMerge_node_nodup (fun overlay hover => ?_) hnode
      subst hover
      exact h.node overlay hv

omit [Tls] in
theorem assign_nodup {j v saved : Json} {key : String} (h : assign j key v = .ok saved)
    (hj : ∀ fields, j = .obj fields → (fields.map Prod.fst).Nodup) :
    ∀ fields, saved = .obj fields → (fields.map Prod.fst).Nodup := by
  rintro fields rfl
  unfold assign at h
  split at h
  · cases h
    simp
  · cases h
    exact set_nodup key v (hj _ rfl)
  · cases h

omit [Tls] in
/-- The policy member is set, and each key is still there once. -/
theorem setAuthentication_ok {value v saved : Json} (hs : Shaped value)
    (h : setAuthentication value v = .ok saved) :
    Shaped saved ∧ authentication saved = some v := by
  simp only [setAuthentication, bind_ok] at h
  obtain ⟨node, hnode, h⟩ := h
  have hget : saved.get? "node" = some node := by
    rw [get?_assign h, if_pos rfl]
  refine ⟨⟨assign_nodup h hs.top, fun fields hfields => ?_⟩, ?_⟩
  · rw [hget] at hfields
    cases hfields
    refine assign_nodup hnode (fun overlay hover => ?_) fields rfl
    unfold Json.index at hover
    cases hold : value.get? "node" with
    | none =>
      rw [hold] at hover
      cases hover
    | some old =>
      rw [hold, Option.getD_some] at hover
      exact hs.node overlay (hold.trans (congrArg some hover))
  · simp only [authentication, hget, Option.bind_some]
    rw [get?_assign hnode, if_pos rfl]

omit [Tls] in
/-- Merging the defaults over a saved policy leaves it as it is. -/
theorem authentication_merged (env : Environment) {file v : Json} (hs : Shaped file)
    (h : authentication file = some v) : authentication (env.merged file) = some v := by
  simp only [authentication, Option.bind_eq_some_iff] at h
  obtain ⟨node, hnode, hv⟩ := h
  cases file with
  | obj fields =>
    cases node with
    | obj overlay =>
      have hlookup : fields.lookup "node" = some (.obj overlay) := hnode
      have hoverlay : overlay.lookup "authentication" = some v := hv
      have hnone : defaultNode.lookup "authentication" = none := rfl
      have hmerged : (env.merged (.obj fields)).get? "node"
          = some (.obj (mergeFields defaultNode overlay)) := by
        rw [merged_node env (hs.top fields rfl), hlookup]
        simp only [deepMerge_obj]
      rw [authentication, hmerged, Option.bind_some, Json.get?,
        mergeFields_lookup _ _ _ (hs.node overlay hnode), hoverlay, hnone]
      simp only [Option.getD_none, deepMerge_null]
    | _ => cases hv
  | _ => cases hnode

/-- The policy that is saved is the one that the next reading finds. -/
theorem policyOf_saved (env : Environment) {value saved : Json} {p : AuthenticationPolicy}
    (hs : Shaped value) (hvalid : p.validate = .ok ())
    (h : setAuthentication value p.toJson = .ok saved) :
    Shaped saved ∧ env.policyOf saved = .ok p := by
  obtain ⟨hshaped, hauth⟩ := setAuthentication_ok hs h
  refine ⟨hshaped, ?_⟩
  rw [Environment.policyOf, authentication_merged env hshaped hauth]
  exact AuthenticationPolicy.parse_toJson hvalid

/-- What an edit finds: the merged file, with each key once, and the file's own policy. -/
theorem load_ok {env : Environment} {file value : Json} (hs : Shaped file)
    (h : env.load (some file) = .ok value) :
    Shaped value ∧ AuthenticationPolicy.parse (authentication value) = env.policyOf file := by
  simp only [Environment.load, bind_ok, ensure_ok, pure_ok] at h
  obtain ⟨_, hobj, _, -, _, -, rfl⟩ := h
  cases file with
  | obj fields => exact ⟨merged_shaped env hs, rfl⟩
  | _ => cases hobj

/-- An edit leaves the file alone, or it saves the value. -/
theorem editForRestart_ok {α : Type} {env : Environment} {file : Option Json}
    {write : Result Unit} {edit : Json → Result (α × Json × Bool)} {after : Option Json}
    {r : Result α} (h : env.editForRestart file write edit = (after, r)) :
    (after = file ∧ ∀ a, r = .ok a → ∃ saved value value', file = some saved ∧
      env.load (some saved) = .ok value ∧ edit value = .ok (a, value', false)) ∨
    ∃ saved value value' a, file = some saved ∧ env.load (some saved) = .ok value ∧
      edit value = .ok (a, value', true) ∧ after = some value' ∧ r = .ok a := by
  unfold Environment.editForRestart at h
  split at h
  · cases h
    exact Or.inl ⟨rfl, fun a ha => by cases ha⟩
  rename_i saved
  split at h
  · cases h
    exact Or.inl ⟨rfl, fun a ha => by cases ha⟩
  rename_i result value' changed hedit
  rw [bind_ok] at hedit
  obtain ⟨value, hload, hedit⟩ := hedit
  split at h
  · rename_i hchanged
    subst hchanged
    split at h
    · cases h
      exact Or.inr ⟨saved, value, value', result, rfl, hload, hedit, rfl, rfl⟩
    · cases h
      exact Or.inl ⟨rfl, fun a ha => by cases ha⟩
  · rename_i hchanged
    cases h
    rw [Bool.not_eq_true] at hchanged
    subst hchanged
    refine Or.inl ⟨rfl, fun a ha => ?_⟩
    cases ha
    exact ⟨saved, value, value', rfl, hload, hedit⟩

end Eef.Coordinator.Config
