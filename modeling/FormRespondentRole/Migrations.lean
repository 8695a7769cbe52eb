import FormRespondentRole.Tables
import FormRespondentRole.Foundations.Ddl
import FormRespondentRole.Foundations.Reachability

/-!
# Migrations

Every replica runs all migrations when it boots, each file in a transaction of its own, while others
serve, boot or die. During a deploy some replicas are of an older version, which has the first files
only.  A file is one step: that two replicas create the same table at the same time, where the later
one can fail, is left out.

The schema goes through the versions of the files one after the other, a file that has been applied
changes nothing when it runs again, and no file fails (`migrations_linear`).  What a replica that
has booted inserts is accepted whatever the others have done to the schema (`inserts_accepted`).
The version column of responses is filled with the versions that the forms have then
(`schemaVersion_filled`).
-/

namespace FormRespondentRole

open Foundations

/-- The values of the columns; JSON by its text. -/
inductive SqlValue
  | bool (b : Bool)
  | integer (n : Int32)
  | bigint (n : Int64)
  | text (t : Text)
  | jsonb (json : Text)
  | uuid (u : Uuid)
  | timestamptz (t : Instant)
deriving DecidableEq

namespace Migrations

abbrev Statement := Ddl SqlValue

/-! ### The files -/

section

variable (name type : String)

def nullable : Column SqlValue := { name := name.toList, type := type.toList }

def required (default : Option (Default SqlValue)) : Column SqlValue :=
  { name := name.toList, type := type.toList, notNull := true, default := default }

end

def now : Option (Default SqlValue) := some (.expression "now()".toList)

def newUuid : Option (Default SqlValue) := some (.expression "gen_random_uuid()".toList)

def serial (table : String) : Option (Default SqlValue) :=
  some (.expression ("nextval('".toList ++ table.toList ++ "_id_seq')".toList))

def value (v : SqlValue) : Option (Default SqlValue) := some (.value v)

def createTable (name : String) (columns : List (Column SqlValue)) (constraints : List String) :
    Statement :=
  .createTable ⟨name.toList, columns, constraints.map String.toList⟩

def createIndex (name table definition : String) : Statement :=
  .createIndex ⟨name.toList, table.toList, definition.toList⟩

def addColumn (table : String) (c : Column SqlValue) : Statement := .addColumn table.toList c

def initialSchema : List Statement :=
  [createTable "role_links"
    [required "id" "BIGSERIAL" (serial "role_links"), required "guild_id" "TEXT" none,
      required "role_id" "TEXT" none,
      required "api_token" "TEXT" none, nullable "form_id" "TEXT",
        required "grant_on_any_submission" "BOOLEAN" (value (.bool false)),
      required "conditions" "JSONB" (value (.jsonb "[]".toList)),
        required "created_at" "TIMESTAMPTZ" now,
      required "updated_at" "TIMESTAMPTZ" now]
    ["PRIMARY KEY (id)", "UNIQUE (guild_id, role_id)"],
  createIndex "idx_role_links_form_id" "role_links" "(form_id) WHERE form_id IS NOT NULL",
  createTable "role_assignments"
    [required "guild_id" "TEXT" none, required "role_id" "TEXT" none,
      required "discord_id" "TEXT" none,
      required "assigned_at" "TIMESTAMPTZ" now]
    ["PRIMARY KEY (guild_id, role_id, discord_id)",
      "FOREIGN KEY (guild_id, role_id) REFERENCES role_links (guild_id, role_id) ON DELETE CASCADE"]]

def forms : List Statement :=
  [createTable "forms"
    [required "id" "UUID" newUuid, required "guild_id" "TEXT" none, required "slug" "TEXT" none,
      required "title" "TEXT" none,
      required "description" "TEXT" (value (.text [])),
        required "version" "INTEGER" (value (.integer 1)),
      required "schema" "JSONB" none, required "is_quiz" "BOOLEAN" (value (.bool false)),
        nullable "open_at" "TIMESTAMPTZ",
      nullable "close_at" "TIMESTAMPTZ", required "allow_edits" "BOOLEAN" (value (.bool false)),
      required "single_submission" "BOOLEAN" (value (.bool true)),
        required "require_verified" "BOOLEAN" (value (.bool false)),
      required "min_account_age_days" "INTEGER" (value (.integer 0)),
      required "success_message" "TEXT" (value (.text "Thanks for your response!".toList)),
        required "preview_token" "TEXT" none,
      nullable "webhook_url" "TEXT", required "archived" "BOOLEAN" (value (.bool false)),
        required "created_at" "TIMESTAMPTZ" now,
      required "updated_at" "TIMESTAMPTZ" now]
    ["PRIMARY KEY (id)", "UNIQUE (slug)"],
  createIndex "idx_forms_guild" "forms" "(guild_id)"]

def formResponses : List Statement :=
  [createTable "form_responses"
    [required "id" "UUID" newUuid, required "form_id" "TEXT" none, required "guild_id" "TEXT" none,
      required "discord_id" "TEXT" none,
      required "answers" "JSONB" none, nullable "total_score" "INTEGER",
        required "submitted_at" "TIMESTAMPTZ" now,
      required "last_edited_at" "TIMESTAMPTZ" now]
    ["PRIMARY KEY (id)"],
  createIndex "idx_form_responses_form_user" "form_responses" "(form_id, discord_id)",
  createIndex "idx_form_responses_discord" "form_responses" "(discord_id)",
  createIndex "idx_form_responses_guild" "form_responses" "(guild_id)",
  createIndex "idx_form_responses_answers_gin" "form_responses" "USING GIN (answers)"]

def guildSettings : List Statement :=
  [createTable "guild_settings"
    [required "guild_id" "TEXT" none, required "view_permission" "TEXT"
      (value (.text "managers".toList)),
      required "updated_at" "TIMESTAMPTZ" now]
    ["PRIMARY KEY (guild_id)"]]

def jobs : List Statement :=
  [createTable "jobs"
    [required "id" "BIGSERIAL" (serial "jobs"), required "kind" "TEXT" none,
      required "payload" "JSONB" none,
      { required "status" "TEXT" (value (.text "pending".toList)) with
        oneOf := some [.text "pending".toList, .text "in_progress".toList, .text "completed".toList,
          .text "dead".toList] },
      required "attempts" "INTEGER" (value (.integer 0)),
      required "max_attempts" "INTEGER" (value (.integer 8)),
        required "next_run_at" "TIMESTAMPTZ" now, nullable "last_error" "TEXT",
      nullable "locked_by" "TEXT", nullable "locked_at" "TIMESTAMPTZ",
        required "created_at" "TIMESTAMPTZ" now,
      nullable "completed_at" "TIMESTAMPTZ"]
    ["PRIMARY KEY (id)"],
  createIndex "idx_jobs_pending_next_run" "jobs" "(next_run_at) WHERE status = 'pending'",
  createIndex "idx_jobs_dead_recent" "jobs" "(completed_at DESC) WHERE status = 'dead'",
  createIndex "idx_jobs_locked" "jobs" "(locked_at) WHERE status = 'in_progress'"]

def indexes : List Statement :=
  [createIndex "idx_forms_guild_updated" "forms" "(guild_id, updated_at DESC)",
  createIndex "idx_form_responses_form_submitted" "form_responses" "(form_id, submitted_at DESC)",
  createIndex "idx_forms_slug" "forms" "(slug)",
  createIndex "idx_role_links_guild_role" "role_links" "(guild_id, role_id)",
  createIndex "idx_role_links_form" "role_links" "(form_id) WHERE form_id IS NOT NULL"]

/-- The row is that of the form with this id. -/
def isForm (s : Store SqlValue) (formId : Option SqlValue) (row : Row SqlValue) : Bool :=
  match s.valueAt "forms".toList "id".toList row, formId with
  | some (.uuid u), some (.text formId) => decide (u.text = formId)
  | _, _ => false

/-- The version that the form of a response has now, or else 1. -/
def formVersion (s : Store SqlValue) (row : Row SqlValue) : SqlValue :=
  ((((s.rows "forms".toList).find?
    (isForm s (s.valueAt "form_responses".toList "form_id".toList row))).bind
    (s.valueAt "forms".toList "version".toList))).getD (.integer 1)

def responseSchemaVersion : List Statement :=
  [addColumn "form_responses" (nullable "schema_version" "INTEGER"),
  .fill "form_responses".toList "schema_version".toList formVersion,
  .setNotNull "form_responses".toList "schema_version".toList,
  .setDefault "form_responses".toList "schema_version".toList (.integer 1)]

def formPassingScore : List Statement := [addColumn "forms" (nullable "passing_score" "INTEGER")]

def formRetries : List Statement :=
  [addColumn "forms" (required "max_attempts" "INTEGER" (value (.integer 1))),
  addColumn "forms" (required "retry_cooldown_seconds" "INTEGER" (value (.integer 0))),
  addColumn "forms" { required "retry_policy" "TEXT" (value (.text "keep_best".toList)) with
    oneOf := some [.text "keep_best".toList, .text "keep_latest".toList] },
  addColumn "forms" (required "lock_on_pass" "BOOLEAN" (value (.bool true))),
  addColumn "form_responses" (required "attempt_count" "INTEGER" (value (.integer 1))),
  addColumn "form_responses" (nullable "passed" "BOOLEAN")]

def startupBackfill : List Statement :=
  [createTable "startup_backfills" [required "name" "TEXT" none,
    required "completed_at" "TIMESTAMPTZ" now] ["PRIMARY KEY (name)"]]

def files : List (List Statement) :=
  [initialSchema, forms, formResponses, guildSettings, jobs, indexes, responseSchemaVersion,
    formPassingScore, formRetries,
    startupBackfill]

/-! ### Versions of the schema -/

def noTables : Schema SqlValue := ⟨[], []⟩

/-- The schema after so many files. -/
def version (n : Nat) : Schema SqlValue :=
  (Ddl.appliedAll (files.take n).flatten noTables).getD noTables

/-- What the files have done is there, and the next one takes its version to the one after, which
extends it. -/
theorem checked_files : ∀ n ≤ files.length,
    ((files.take n).flatten.all fun d => d.done (version n)) = true ∧
      (n < files.length → Ddl.appliedAll (files[n]?.getD []) (version n) = some (version (n + 1))) ∧
      (version n).extendedBy (version n) = true ∧
        (version n).extendedBy (version (n + 1)) = true := by
  decide +kernel

private theorem careful_files : ∀ file ∈ files, Ddl.careful file = true := by
  decide +kernel

/-- Every version has all that the earlier ones have, and what it has more is not needed. -/
theorem version_extendedBy {n m : Nat} (hnm : n ≤ m) (hm : m ≤ files.length) :
    (version n).extendedBy (version m) = true := by
  induction m, hnm using Nat.le_induction with
  | base => exact (checked_files n hm).2.2.1
  | succ m hnm ih =>
    exact Schema.extendedBy_trans (ih (by omega)) (checked_files m (by omega)).2.2.2

/-- A file that has been applied changes nothing. -/
theorem execAll_again {s : Store SqlValue} {m n : Nat} {file : List Statement}
    (hschema : s.schema = version m) (hs : s.Conforms) (hm : m ≤ files.length) (hnm : n < m)
    (hfile : files[n]? = some file) :
    Ddl.execAll file s = some s := by
  have hdone := List.all_eq_true.1 (checked_files m hm).1
  rw [← hschema] at hdone
  have htaken : file ∈ files.take m :=
    List.mem_of_getElem? ((List.getElem?_take_of_lt hnm).trans hfile)
  exact Ddl.execAll_of_done (fun d hd => hdone d (List.mem_flatten.2 ⟨file, htaken, hd⟩)) hs

/-- The next file takes the schema to the next version. -/
theorem execAll_next {s : Store SqlValue} {m : Nat} {file : List Statement}
    (hschema : s.schema = version m) (hs : s.Conforms) (hfile : files[m]? = some file) :
    ∃ s', Ddl.execAll file s = some s' ∧ s'.schema = version (m + 1) ∧ s'.Conforms ∧
      s.Keeps s' := by
  obtain ⟨hlt, hget⟩ := List.getElem?_eq_some_iff.1 hfile
  have happlied := (checked_files m hlt.le).2.1 hlt
  rw [hfile, Option.getD_some, ← hschema] at happlied
  obtain ⟨s', hs'⟩ := Option.isSome_iff_exists.1
    (Ddl.execAll_isSome (careful_files file (List.mem_of_getElem? hfile)) hs
      (Option.isSome_iff_exists.2 ⟨_, happlied⟩))
  obtain ⟨hschema', hconforms, hkeeps⟩ := Ddl.execAll_spec hs hs'
  exact ⟨s', hs', Option.some.inj (hschema'.symm.trans happlied), hconforms, hkeeps⟩

/-! ### Rollouts -/

/-- A process: how many of the files its version has, and how many it has run. -/
structure Replica where
  known : Nat
  next : Nat
deriving DecidableEq

structure Rollout where
  store : Store SqlValue
  replicas : List Replica

inductive RolloutEvent
  | boot (known : Nat)
  /-- A replica runs its next file; if that fails, it panics. -/
  | migrate (i : Nat)
  /-- A replica dies, for any reason. -/
  | stop (i : Nat)
  | write (rows : Text → List (Row SqlValue))

def rolloutStep (d : Rollout) : RolloutEvent → Option Rollout
  | .boot known => if known ≤ files.length then
  some { d with replicas := d.replicas ++ [⟨known, 0⟩] } else none
  | .migrate i => (partyAt d.replicas i).bind fun (pre, r, post) =>
    if r.next < r.known then
      match Ddl.execAll (files[r.next]?.getD []) d.store with
      | some store => some ⟨store, pre ++ { r with next := r.next + 1 } :: post⟩
      | none => some { d with replicas := pre ++ post }
    else none
  | .stop i => (partyAt d.replicas i).map fun (pre, _, post) => { d with replicas := pre ++ post }
  | .write rows => some { d with store := { d.store with rows := rows } }

def rolloutSystem : System Rollout RolloutEvent := ⟨rolloutStep⟩

/-- The database refuses what does not conform to its schema. -/
def Enforced (d : Rollout) : RolloutEvent → Rollout → Prop
  | .write rows, _ => Store.Conforms ⟨d.store.schema, rows⟩
  | _, _ => True

def emptyRollout : Rollout := ⟨⟨noTables, fun _ => []⟩, []⟩

/-- The schema is one of the versions, and none of the replicas is ahead of it. -/
structure Rollout.Sound (d : Rollout) (m : Nat) : Prop where
  le : m ≤ files.length
  schema : d.store.schema = version m
  conforms : d.store.Conforms
  replicas : ∀ r ∈ d.replicas, r.known ≤ files.length ∧ r.next ≤ m

theorem Rollout.Sound.others {d : Rollout} {m : Nat} {pre post : List Replica} {r : Replica}
    {i : Nat} (h : d.Sound m) (hparty : partyAt d.replicas i = some (pre, r, post)) :
    Rollout.Sound { d with replicas := pre ++ post } m :=
  ⟨h.le, h.schema, h.conforms, fun _ hr' => h.replicas _ (mem_of_partyAt_others hparty hr')⟩

private theorem step_boot {d : Rollout} {known : Nat} (hknown : known ≤ files.length) :
    rolloutSystem.step d (.boot known) =
      some { d with replicas := d.replicas ++ [⟨known, 0⟩] } := by
  show rolloutStep d (.boot known) = _
  rw [rolloutStep, if_pos hknown]

theorem Rollout.Sound.boot {d : Rollout} {m known : Nat} (h : d.Sound m)
    (hknown : known ≤ files.length) :
    Rollout.Sound { d with replicas := d.replicas ++ [⟨known, 0⟩] } m := by
  refine ⟨h.le, h.schema, h.conforms, fun r hr => ?_⟩
  rcases List.mem_append.1 hr with hr | hr
  · exact h.replicas r hr
  · rw [List.mem_singleton.1 hr]
    exact ⟨hknown, Nat.zero_le m⟩

/-- A replica that has a file left runs it. -/
theorem sound_migrate {d : Rollout} {m i : Nat} {pre post : List Replica} {r : Replica}
    (h : d.Sound m) (hparty : partyAt d.replicas i = some (pre, r, post)) (hlt : r.next < r.known) :
    ∃ store, rolloutSystem.step d (.migrate i) =
      some ⟨store, pre ++ { r with next := r.next + 1 } :: post⟩ ∧
      Rollout.Sound ⟨store, pre ++ { r with next := r.next + 1 } :: post⟩ (max m (r.next + 1)) := by
  obtain ⟨hbound, hnext⟩ := h.replicas r (mem_of_partyAt hparty)
  obtain ⟨file, hfile⟩ : ∃ file, files[r.next]? = some file :=
    ⟨_, List.getElem?_eq_getElem (by omega)⟩
  have hstep : ∀ {store : Store SqlValue}, Ddl.execAll file d.store = some store →
      rolloutSystem.step d (.migrate i) =
          some ⟨store, pre ++ { r with next := r.next + 1 } :: post⟩ := by
    intro store hstore
    show rolloutStep d (.migrate i) = _
    rw [rolloutStep, hparty, Option.bind_some]
    dsimp only
    rw [if_pos hlt, hfile, Option.getD_some, hstore]
  have hreplicas : ∀ r' ∈ pre ++ { r with next := r.next + 1 } :: post,
      r'.known ≤ files.length ∧ r'.next ≤ max m (r.next + 1) := by
    intro r' hr'
    by_cases hother : r' ∈ pre ++ post
    · obtain ⟨hknown', hnext'⟩ := h.replicas r' (mem_of_partyAt_others hparty hother)
      exact ⟨hknown', hnext'.trans (le_max_left _ _)⟩
    · obtain rfl : r' = { r with next := r.next + 1 } := by
        rw [List.mem_append, List.mem_cons] at hr'
        rw [List.mem_append] at hother
        tauto
      exact ⟨hbound, le_max_right _ _⟩
  rcases Nat.lt_or_eq_of_le hnext with hnew | rfl
  · refine ⟨d.store, hstep (execAll_again h.schema h.conforms h.le hnew hfile), ?_⟩
    rw [max_eq_left (show r.next + 1 ≤ m from hnew)] at hreplicas ⊢
    exact ⟨h.le, h.schema, h.conforms, hreplicas⟩
  · obtain ⟨store, hstore, hschema, hconforms, -⟩ := execAll_next h.schema h.conforms hfile
    refine ⟨store, hstep hstore, ?_⟩
    rw [max_eq_right (Nat.le_succ r.next)] at hreplicas ⊢
    exact ⟨by omega, hschema, hconforms, hreplicas⟩

private theorem sound_rolloutStep {d d' : Rollout} {e : RolloutEvent} (h : ∃ m, d.Sound m)
    (hC : Enforced d e d') (hstep : rolloutStep d e = some d') : ∃ m, d'.Sound m := by
  obtain ⟨m, h⟩ := h
  cases e with
  | boot known =>
    obtain ⟨hknown, hstep⟩ := Option.ite_none_right_eq_some.1 hstep
    obtain rfl := Option.some.inj hstep
    exact ⟨m, h.boot hknown⟩
  | migrate i =>
    obtain ⟨⟨pre, r, post⟩, hparty, hguard⟩ := Option.bind_eq_some_iff.1 hstep
    obtain ⟨store, hmigrate, hsound⟩ :=
      sound_migrate h hparty (Option.ite_none_right_eq_some.1 hguard).1
    obtain rfl := Option.some.inj (hstep.symm.trans hmigrate)
    exact ⟨_, hsound⟩
  | stop i =>
    obtain ⟨⟨pre, r, post⟩, hparty, rfl⟩ := Option.map_eq_some_iff.1 hstep
    exact ⟨m, h.others hparty⟩
  | write rows =>
    obtain rfl := Option.some.inj hstep
    exact ⟨m, h.le, h.schema, hC, h.replicas⟩

private theorem conforms_noRows (s : Schema SqlValue) : Store.Conforms ⟨s, fun _ => []⟩ :=
  ⟨fun _ _ _ _ hrow => absurd hrow List.not_mem_nil, fun _ _ => rfl⟩

private theorem emptyRollout_sound : emptyRollout.Sound 0 :=
  ⟨Nat.zero_le _, rfl, conforms_noRows _, fun _ hr => absurd hr List.not_mem_nil⟩

private theorem rollout_sound {es : List RolloutEvent} {d : Rollout}
    (h : rolloutSystem.Run Enforced emptyRollout es d) : ∃ m, d.Sound m :=
  h.invariant (fun _ _ _ hd hC hstep => sound_rolloutStep hd hC hstep) ⟨0, emptyRollout_sound⟩

/-- In every rollout the schema is one of the versions.  No replica is ahead of it, a file that has
been applied changes nothing, and the next one succeeds and keeps all rows and values. -/
theorem migrations_linear {es : List RolloutEvent} {d : Rollout}
    (h : rolloutSystem.Run Enforced emptyRollout es d) :
    ∃ m ≤ files.length, d.store.schema = version m ∧ d.store.Conforms ∧
      ∀ r ∈ d.replicas, r.next ≤ m ∧ ∀ file, files[r.next]? = some file →
        (r.next < m → Ddl.execAll file d.store = some d.store) ∧
        (r.next = m → ∃ store, Ddl.execAll file d.store = some store ∧
          store.schema = version (m + 1) ∧ store.Conforms ∧
          d.store.Keeps store) := by
  obtain ⟨m, hd⟩ := rollout_sound h
  refine ⟨m, hd.le, hd.schema, hd.conforms, fun r hr =>
    ⟨(hd.replicas r hr).2, fun file hfile => ⟨fun hlt => ?_, fun heq => ?_⟩⟩⟩
  · exact execAll_again hd.schema hd.conforms hd.le hlt hfile
  · subst heq
    exact execAll_next hd.schema hd.conforms hfile

/-- A replica boots, and nobody else does anything. -/
theorem boots {d : Rollout} {m k : Nat} {pre post : List Replica} {r : Replica} (h : d.Sound m)
    (hd : d.replicas = pre ++ r :: post) (hk : r.next + k ≤ r.known) :
    ∃ d', rolloutSystem.Run Enforced d (List.replicate k (.migrate pre.length)) d' ∧
      d'.replicas = pre ++ ⟨r.known, r.next + k⟩ :: post ∧ d'.Sound (max m (r.next + k)) := by
  induction k generalizing d m r with
  | zero => exact ⟨d, .nil d, hd,
    by rwa [Nat.add_zero, max_eq_left (h.replicas r (by rw [hd]; simp)).2]⟩
  | succ k ih =>
    have hparty : partyAt d.replicas pre.length = some (pre, r, post) := by
      rw [partyAt, hd, List.drop_left, List.take_left]
    obtain ⟨store, hstep, hsound⟩ := sound_migrate h hparty (by omega)
    obtain ⟨d', hrun, hreplicas, hsound'⟩ :=
      ih (r := { r with next := r.next + 1 }) hsound rfl (by simp only; omega)
    refine ⟨d', .cons hstep trivial hrun, ?_, ?_⟩
    · rw [hreplicas]
      simp only [Nat.add_assoc, Nat.add_comm 1 k]
    · rw [max_assoc, max_eq_right (Nat.le_add_right _ k)] at hsound'
      rwa [Nat.add_assoc, Nat.add_comm 1 k] at hsound'

/-- A replica with six files has run them, and one with all of them has run some. -/
theorem runs_survey {k : Nat} (hk : k ≤ 10) :
    ∃ es d, rolloutSystem.Run Enforced emptyRollout es d ∧ d.replicas = [⟨6, 6⟩, ⟨10, k⟩] ∧
      d.Sound (max 6 k) := by
  have hboot : emptyRollout.replicas ++ [⟨6, 0⟩] = [] ++ ⟨6, 0⟩ :: [] := rfl
  obtain ⟨d, hrun, hreplicas, hsound⟩ :=
    boots (emptyRollout_sound.boot (by decide)) hboot (show 0 + 6 ≤ 6 from le_rfl)
  have hboot' : d.replicas ++ [⟨10, 0⟩] = [⟨6, 6⟩] ++ ⟨10, 0⟩ :: [] := by rw [hreplicas]; rfl
  obtain ⟨d', hrun', hreplicas', hsound'⟩ :=
    boots (hsound.boot (by decide)) hboot' (show 0 + k ≤ 10 by omega)
  have hfirst : rolloutSystem.Run Enforced emptyRollout [.boot 6] _ :=
    .single (step_boot (by decide)) trivial
  have hsecond : rolloutSystem.Run Enforced d [.boot 10] _ :=
    .single (step_boot (by decide)) trivial
  refine ⟨_, d', (hfirst.append hrun).append (hsecond.append hrun'), ?_, ?_⟩
  · rw [hreplicas', Nat.zero_add]
    rfl
  · rwa [Nat.zero_add, Nat.zero_add, max_eq_right (Nat.zero_le 6)] at hsound'

/-- What the defaults yield on some day. -/
def sampleDefaults (text : Text) : SqlValue :=
  if text = "now()".toList then .timestamptz 0
  else if text = "gen_random_uuid()".toList then .uuid 2
  else .bigint 1

def surveyForm : Insert SqlValue :=
  ⟨"forms".toList, [("id".toList, some (.uuid 1)), ("guild_id".toList, some (.text "g".toList)),
    ("slug".toList, some (.text "survey".toList)), ("title".toList, some (.text "Survey".toList)),
    ("version".toList, some (.integer 3)), ("schema".toList, some (.jsonb "{}".toList)),
    ("preview_token".toList, some (.text "t".toList))]⟩

def surveyResponse : Insert SqlValue :=
  ⟨"form_responses".toList, [("form_id".toList, some (.text (Uuid.text 1))),
    ("guild_id".toList, some (.text "g".toList)),
    ("discord_id".toList, some (.text "u".toList)), ("answers".toList, some (.jsonb "{}".toList))]⟩

/-- The same with a form and a response to it, before the seventh file. -/
private theorem runs_surveyRows : ∃ es d, rolloutSystem.Run Enforced emptyRollout es d ∧
    d.replicas = [⟨6, 6⟩, ⟨10, 6⟩] ∧
    d.store.schema = version 6 ∧ (d.store.rows "form_responses".toList).map (formVersion d.store) =
      [.integer 3] := by
  obtain ⟨es, d, hd, hreplicas, hsound⟩ := runs_survey (k := 6) (by decide)
  have hversion : d.store.schema = version 6 := hsound.schema
  have hinserted : ((surveyForm.exec sampleDefaults ⟨version 6, fun _ => []⟩).bind
    (surveyResponse.exec sampleDefaults)).any
      (fun s => decide ((s.rows "form_responses".toList).map (formVersion s) = [.integer 3])) =
        true := by decide +kernel
  obtain ⟨s, hs, hforms⟩ := (Option.any_eq_true _ _).1 hinserted
  obtain ⟨s', hs', hs⟩ := Option.bind_eq_some_iff.1 hs
  have hconforms := Insert.exec_conforms (Insert.exec_conforms (conforms_noRows _) hs') hs
  have hschema : s.schema = version 6 := by
    obtain ⟨-, -, rfl⟩ := Insert.exec_eq_some.1 hs
    obtain ⟨-, -, rfl⟩ := Insert.exec_eq_some.1 hs'
    rfl
  have hstore : (⟨d.store.schema, s.rows⟩ : Store SqlValue) = s := by rw [hversion, ← hschema]
  have hwrite : Store.Conforms ⟨d.store.schema, s.rows⟩ := by rw [hstore]; exact hconforms
  have hrun := hd.append (System.Run.single (e := .write s.rows) (C := Enforced) rfl hwrite)
  refine ⟨_, _, hrun, hreplicas, hversion, ?_⟩
  dsimp only
  rw [hstore]
  exact of_decide_eq_true hforms

/-- The older replica has left a response, and the newer one runs the next file. -/
theorem migrations_linear_survey : ∃ es d, rolloutSystem.Run Enforced emptyRollout es d ∧
    (d.store.rows "form_responses".toList).length = 1 ∧
      ∃ store, Ddl.execAll responseSchemaVersion d.store = some store ∧ d.store.Keeps store := by
  obtain ⟨es, d, hd, hreplicas, -, hrows⟩ := runs_surveyRows
  refine ⟨es, d, hd, by simpa using congrArg List.length hrows, ?_⟩
  obtain ⟨m, -, -, -, heach⟩ := migrations_linear hd
  obtain ⟨hle, hfiles⟩ := heach ⟨10, 6⟩ (by rw [hreplicas]; decide)
  obtain ⟨hagain, hnext⟩ := hfiles responseSchemaVersion rfl
  rcases Nat.lt_or_eq_of_le hle with hlt | heq
  · exact ⟨d.store, hagain hlt, .refl _⟩
  · obtain ⟨store, hstore, -, -, hkeeps⟩ := hnext heq
    exact ⟨store, hstore, hkeeps⟩

/-- A replica that has booted inserts what the schema of its own version accepts. -/
theorem inserts_accepted {es : List RolloutEvent} {d : Rollout}
    (h : rolloutSystem.Run Enforced emptyRollout es d) {r : Replica} (hr : r ∈ d.replicas)
    (hbooted : r.next = r.known) {i : Insert SqlValue} {evaluated : Text → SqlValue}
    {row : Row SqlValue} (hrow : i.row? evaluated (version r.known) = some row) :
    ∃ more store, i.exec evaluated d.store = some store ∧ store.schema = d.store.schema ∧
      store.Conforms ∧
      store.rows = Function.update d.store.rows i.table
      (d.store.rows i.table ++ [row ++ more]) := by
  obtain ⟨m, hd⟩ := rollout_sound h
  have hextended := version_extendedBy (hbooted ▸ (hd.replicas r hr).2) hd.le
  rw [← hd.schema] at hextended
  obtain ⟨more, hmore⟩ := Insert.row?_of_extendedBy hextended hrow
  have hexec := Insert.exec_eq_some.2 ⟨_, hmore, rfl⟩
  exact ⟨more, _, hexec, rfl, Insert.exec_conforms hd.conforms hexec, rfl⟩

/-- The replica with six files inserts after the other one has run all. -/
theorem inserts_accepted_survey :
    ∃ es d, rolloutSystem.Run Enforced emptyRollout es d ∧ d.replicas = [⟨6, 6⟩, ⟨10, 10⟩] ∧
      ∃ store, surveyResponse.exec sampleDefaults d.store = some store ∧ store.Conforms := by
  obtain ⟨es, d, hd, hreplicas, -⟩ := runs_survey (k := 10) le_rfl
  refine ⟨es, d, hd, hreplicas, ?_⟩
  have hrow : (surveyResponse.row? sampleDefaults (version 6)).isSome = true := by decide +kernel
  obtain ⟨row, hrow⟩ := Option.isSome_iff_exists.1 hrow
  obtain ⟨-, store, hstore, -, hconforms, -⟩ :=
    inserts_accepted hd (r := ⟨6, 6⟩) (by rw [hreplicas]; exact List.mem_cons_self) rfl hrow
  exact ⟨store, hstore, hconforms⟩

/-! ### The version column of responses -/

/-- The value is the version of the one form that the response is to, or 1 if there is none. -/
structure HasFormVersion (s : Store SqlValue) (row : Row SqlValue) (v : SqlValue) : Prop where
  ofForm : ∀ form ∈ s.rows "forms".toList, (∀ other ∈ s.rows "forms".toList,
    isForm s (s.valueAt "form_responses".toList "form_id".toList row) other = true ↔ other = form) →
      s.valueAt "forms".toList "version".toList form = some v
  ofNone : (∀ form ∈ s.rows "forms".toList,
    isForm s (s.valueAt "form_responses".toList "form_id".toList row) form = false) → v = .integer 1

private theorem hasFormVersion {s : Store SqlValue} (hs : s.Conforms)
    (hversion : s.schema = version 6) (row : Row SqlValue) :
    HasFormVersion s row (formVersion s row) := by
  constructor
  · intro form hform hone
    have hfind : (s.rows "forms".toList).find?
      (isForm s (s.valueAt "form_responses".toList "form_id".toList row)) =
        some form := by
      obtain ⟨other, hother⟩ :=
        Option.isSome_iff_exists.1 (List.find?_isSome.2 ⟨form, hform, (hone form hform).2 rfl⟩)
      rw [hother, (hone other (List.mem_of_find?_eq_some hother)).1 (List.find?_some hother)]
    have hcolumn : ((version 6).table? "forms".toList).any (fun t =>
        (t.columns.find? fun c => decide (c.name = "version".toList)).any (·.notNull)) =
          true := by decide +kernel
    rw [← hversion] at hcolumn
    obtain ⟨t, ht, hcolumn⟩ := (Option.any_eq_true _ _).1 hcolumn
    obtain ⟨c, hc, hnull⟩ := (Option.any_eq_true _ _).1 hcolumn
    obtain ⟨v, hv⟩ := Option.isSome_iff_exists.1
      (valueAt_isSome (hs.rows _ t ht form hform) hc hnull)
    have hvalue : s.valueAt "forms".toList "version".toList form = some v := by
      rw [Store.valueAt, ht, Option.bind_some, hv]
    rw [formVersion, hfind, Option.bind_some, hvalue, Option.getD_some]
  · intro hnone
    rw [formVersion, List.find?_eq_none.2 fun form hform => Bool.eq_false_iff.1 (hnone form hform)]
    rfl

private theorem formVersion_addColumn {s added : Store SqlValue} {t : TableSchema SqlValue}
    {c : Column SqlValue} {row : Row SqlValue}
    (hs : s.Conforms) (ht : s.schema.table? "form_responses".toList = some t)
    (hid : (t.column? "form_id".toList).isSome = true)
    (hnew : t.column? c.name = none) (hrow : row ∈ s.rows "form_responses".toList)
    (h : (Ddl.addColumn "form_responses".toList c).exec s = some added) :
    formVersion added (row ++ [none]) = formVersion s row := by
  obtain ⟨hschema, hrows⟩ := Ddl.exec_addColumn ht hnew h
  have hother : "forms".toList ≠ "form_responses".toList := by decide
  have hforms : added.valueAt "forms".toList = s.valueAt "forms".toList := by
    funext column row
    rw [Store.valueAt, hschema, Schema.table?_alterTable (f := (·.addColumn c)) (fun _ => rfl),
      if_neg hother, Store.valueAt]
  have hformId : added.valueAt "form_responses".toList "form_id".toList (row ++ [none]) =
      s.valueAt "form_responses".toList "form_id".toList row := by
    rw [Store.valueAt, hschema, Schema.table?_alterTable (f := (·.addColumn c)) (fun _ => rfl),
      if_pos rfl, ht, Store.valueAt, ht]
    exact valueAt_append (hs.rows _ t ht row hrow) hid
  have hisForm : isForm added = isForm s := by
    funext formId row
    simp only [isForm, hforms]
  rw [formVersion, formVersion, hformId, hisForm, hforms, hrows, Function.update_of_ne hother]

/-- The file gives each response the version that its form has now, or 1 without a form, and changes
nothing else. -/
theorem schemaVersion_filled {es : List RolloutEvent} {d : Rollout}
    (h : rolloutSystem.Run Enforced emptyRollout es d) (hversion : d.store.schema = version 6) :
    ∃ store, Ddl.execAll responseSchemaVersion d.store = some store ∧
      store.rows = Function.update d.store.rows "form_responses".toList
        ((d.store.rows "form_responses".toList).map fun row =>
          row ++ [some (formVersion d.store row)]) ∧
      ∀ row, HasFormVersion d.store row (formVersion d.store row) := by
  obtain ⟨m, hd⟩ := rollout_sound h
  have hs := hd.conforms
  obtain ⟨store, hstore, -⟩ :=
    execAll_next hversion hs (show files[6]? = some responseSchemaVersion from rfl)
  refine ⟨store, hstore, ?_, hasFormVersion hs hversion⟩
  have htable : ((version 6).table? "form_responses".toList).any (fun t =>
      (t.column? "form_id".toList).isSome && (t.column? "schema_version".toList).isNone) =
        true := by decide +kernel
  rw [← hversion, Option.any_eq_true] at htable
  obtain ⟨t, ht, hcolumns⟩ := htable
  rw [Bool.and_eq_true, Option.isNone_iff_eq_none] at hcolumns
  obtain ⟨hid, hnew⟩ := hcolumns
  obtain ⟨added, hadded, hrest⟩ := Option.bind_eq_some_iff.1 hstore
  obtain ⟨filled, hfilled, hrest⟩ := Option.bind_eq_some_iff.1 hrest
  obtain ⟨checked, hchecked, hrest⟩ := Option.bind_eq_some_iff.1 hrest
  obtain ⟨last, hlast, hrest⟩ := Option.bind_eq_some_iff.1 hrest
  obtain rfl := Option.some.inj hrest
  -- the last two statements change no row
  have hsame := Option.some.inj (Ddl.exec_eq_some.1 hlast).2
  have hsame' := Option.some.inj (Option.ite_none_left_eq_some.1 (Ddl.exec_eq_some.1 hchecked).2).2
  obtain ⟨added', hadded', hrows⟩ :=
    Ddl.rows_of_fill (c := nullable "schema_version" "INTEGER") hs ht hnew rfl
    (Option.bind_eq_some_iff.2 ⟨added, hadded, Option.bind_eq_some_iff.2 ⟨filled, hfilled, rfl⟩⟩)
  rw [← hsame, ← hsame', hrows]
  congr 1
  exact List.map_congr_left fun row hrow =>
    by rw [formVersion_addColumn hs ht hid hnew hrow hadded']

theorem schemaVersion_filled_survey : ∃ es d store, rolloutSystem.Run Enforced emptyRollout es d ∧
    Ddl.execAll responseSchemaVersion d.store = some store ∧
      (store.rows "form_responses".toList).map List.getLast? = [some (some (.integer 3))] := by
  obtain ⟨es, d, hd, -, hversion, hforms⟩ := runs_surveyRows
  obtain ⟨store, hfilled, hrows, -⟩ := schemaVersion_filled hd hversion
  refine ⟨es, d, store, hd, hfilled, ?_⟩
  have hlast : (List.getLast? ∘ fun row => row ++ [some (formVersion d.store row)]) =
      (fun v : SqlValue => some (some v)) ∘ formVersion d.store := by
    funext row
    rw [Function.comp_apply, List.getLast?_concat, Function.comp_apply]
  rw [hrows, Function.update_self, List.map_map, hlast, ← List.map_map, hforms]
  rfl

end Migrations

end FormRespondentRole
