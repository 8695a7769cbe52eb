import FormRespondentRole.PageBootstrap
import FormRespondentRole.PluginContract
import FormRespondentRole.Foundations.JsLiteral
import FormRespondentRole.Foundations.ScriptText
import FormRespondentRole.Foundations.Templates

/-!
# The pages of the form builder

The builder, the responses page and the role-config page carry the ids of their path in string
literals of their script.  The ids are decoded path segments and go into the page as they are, by
the first of five replacements of the whole page.  The literals denote the ids just when these have
no character that a literal or a reader of HTML takes for something else, end no script, and hold no
name that a later replacement looks for (`pageKept_iff`).
-/

namespace FormRespondentRole

open Foundations

/-! ### Templates -/

/-- What the second id of a path is. -/
inductive PageParam
  | form
  | role

namespace PageParam

/-- The constant of the script that the id goes into. -/
def constant : PageParam → Text
  | form => "FORM_ID".toList
  | role => "ROLE".toList

def placeholder : PageParam → Text
  | form => "__FORM_ID__".toList
  | role => "__ROLE_ID__".toList

def tokenPlaceholder : PageParam → Text
  | form => "__IFS_TOKEN__".toList
  | role => "__IFRAME_TOKEN__".toList

/-- The script up to its first literal. -/
def lead : PageParam → Text
  | form => "\n\"use strict\";\nconst BASE = ".toList
  | role => "\nconst BASE = ".toList

def strict : PageParam → Bool
  | form => true
  | role => false

def placeholders (p : PageParam) : List Text :=
  ["__BASE_URL__".toList, "__GUILD_ID__".toList, p.placeholder, p.tokenPlaceholder,
    "__READ_ONLY__".toList]

def toGuild : Text := ";\nconst GUILD = ".toList

def toParam (p : PageParam) : Text := ";\nconst ".toList ++ (p.constant ++ " = ".toList)

end PageParam

/-- A page's template, by the texts between its placeholders; the last line break is left out.  The
script is the first one. -/
structure AdminTemplate (p : PageParam) where
  head : Text
  body : Text
  code : Text
  gap : Text
  tail : Text
  plain : ∀ s ∈ [head, body, code, gap, tail], ∀ name ∈ p.placeholders,
    (Pattern.literal name).occurs s = false
  first : ∀ s ∈ [head, body], (Pattern.literal scriptStart).occurs s = false ∧ '\r' ∉ s

namespace AdminTemplate

variable {p : PageParam}

def cells (t : AdminTemplate p) : Template :=
  [(.text t.head, '"'), (.place "__BASE_URL__".toList, '/'),
    (.text (t.body ++ (scriptStart ++ p.lead)), '\''),
    (.place "__BASE_URL__".toList, '\''), (.text PageParam.toGuild, '\''),
      (.place "__GUILD_ID__".toList, '\''),
    (.text p.toParam, '\''), (.place p.placeholder, '\''), (.text t.code, '\''),
      (.place p.tokenPlaceholder, '\''),
    (.text t.gap, '\''), (.place "__READ_ONLY__".toList, '\''), (.text t.tail, '\n')]

def text (t : AdminTemplate p) : Text := t.cells.written

end AdminTemplate

/-- The service's own address: a URL, and no placeholder. -/
structure SiteUrl extends BaseUrl where
  literal : ∀ c ∈ text, c ∉ ['\'', '\\', '\n', '\r', nullChar]
  noPlaceholder :
    ∀ p : PageParam, ∀ name ∈ p.placeholders, (Pattern.literal name).occurs text = false

/-! ### Who is let in -/

/-- What the auth gateway replies when it is asked for a permission. -/
inductive PermissionReply
  | unreachable (e : Text)
  | refused
  | notJson (e : Text)
  | body (perm : Value)

/-- The page that is shown instead. -/
inductive AdminRefusal
  | signin
  | accessDenied (message : Text)
  | iframeError (message : Text)

structure AdminSite where
  libs : JwtLibs
  url : UrlEncoding
  baseUrl : SiteUrl
  sessionSecret : Text
  /-- The auth gateway, asked with a session cookie for a guild. -/
  guildPermission : Text → Text → PermissionReply
  builderTemplate : AdminTemplate .form
  responsesTemplate : AdminTemplate .form
  roleConfigTemplate : AdminTemplate .role

section

variable (site : AdminSite) (now : Timestamp)

def checkManager (cookie guildId : Text) : Except AppError Unit :=
  match site.guildPermission cookie guildId with
  | .unreachable e => .error (.internal ("auth_gateway request failed: ".toList ++ e))
  | .refused => .error (.forbidden "Could not verify your permissions for this guild.".toList)
  | .notJson e => .error (.internal ("auth_gateway response not JSON: ".toList ++ e))
  | .body perm =>
    if ((perm.get "is_manager".toList).bind Value.asBool).getD false then .ok ()
    else .error (.forbidden "Only server managers can edit forms for this server.".toList)

def requireManagerHtml (cookie : Option Text) (guildId : Text) : Except AdminRefusal Text :=
  match cookie with
  | none => .error .signin
  | some cookie =>
    match verifySession site.libs.hmac site.url cookie site.sessionSecret now with
    | none => .error .signin
    | some (callerId, _) =>
      match checkManager site cookie guildId with
      | .ok () => .ok callerId
      | .error (.forbidden message) => .error (.accessDenied message)
      | .error _ => .error
        (.accessDenied "Could not verify your permissions for this guild. Try reloading.".toList)

/-- The token that a page is requested with, if it is not empty. -/
def entryToken (token : Option Text) : Option Text := token.filter fun token => decide (token ≠ [])

def checkReadOnlyPageEntry (guildId : Text) (ifs : Option Text) :
    Except AdminRefusal (Option Text) :=
  match entryToken ifs with
  | none => .ok none
  | some token =>
    match verifyIframeSession site.libs.hmac token site.sessionSecret now with
    | none =>
      .error (.iframeError "This read-only view has expired. Reopen it from the RoleLogic dashboard.".toList)
    | some session =>
      if !session.readOnly ∨ session.guildId ≠ guildId then
        .error (.iframeError "This link does not grant access to this page.".toList)
      else .ok (some token)

/-! ### The pages -/

def flagText (readOnly : Bool) : Text := if readOnly then "1".toList else "0".toList

def withReadOnlyPlaceholders (body : Text) (roToken : Option Text) : Text :=
  Text.replace "__READ_ONLY__".toList (flagText roToken.isSome)
    (Text.replace "__IFS_TOKEN__".toList (roToken.getD []) body)

/-- The builder and the responses page, by their template. -/
def formAdminPage (template : AdminTemplate .form) (guildId formId : Text)
    (cookie ifs : Option Text) :
    Except AdminRefusal Text := do
  let roToken ← checkReadOnlyPageEntry site now guildId ifs
  if roToken.isNone then let _ ← requireManagerHtml site now cookie guildId
  let body := Text.replace "__FORM_ID__".toList formId (Text.replace "__GUILD_ID__".toList guildId
    (Text.replace "__BASE_URL__".toList site.baseUrl.text template.text))
  return withReadOnlyPlaceholders body roToken

def builderPage (guildId formId : Text) (cookie ifs : Option Text) : Except AdminRefusal Text :=
  formAdminPage site now site.builderTemplate guildId formId cookie ifs

def responsesPage (guildId formId : Text) (cookie ifs : Option Text) : Except AdminRefusal Text :=
  formAdminPage site now site.responsesTemplate guildId formId cookie ifs

/-- The first path into the role-config page; `apiToken` is what the statement for the link's token
answers. -/
def iframeEntry (guildId roleId : Text) (rlToken : Option Text)
    (apiToken : Except AppError (Option Text)) :
    Except AdminRefusal (Option Text × Bool) :=
  match entryToken rlToken with
  | none => .ok (none, false)
  | some token =>
    match enterWith site.libs site.baseUrl.text site.sessionSecret guildId roleId token now
        apiToken with
    | .ok (session, readOnly) => .ok (some session, readOnly)
    | .error message => .error (.iframeError message)

def roleConfigPage (guildId roleId : Text) (cookie rlToken : Option Text)
    (apiToken : Except AppError (Option Text)) :
    Except AdminRefusal Text := do
  let (iframeSession, readOnly) ← iframeEntry site now guildId roleId rlToken apiToken
  if iframeSession.isNone then let _ ← requireManagerHtml site now cookie guildId
  return Text.replace "__READ_ONLY__".toList (flagText readOnly)
    (Text.replace "__IFRAME_TOKEN__".toList (iframeSession.getD [])
      (Text.replace "__ROLE_ID__".toList roleId (Text.replace "__GUILD_ID__".toList guildId
        (Text.replace "__BASE_URL__".toList site.baseUrl.text site.roleConfigTemplate.text))))

/-- The ids that RoleLogic's token for the page names, as the page's own token has them. -/
def tokenIds (rlToken : Option Text) (apiToken : Except AppError (Option Text)) : List Text :=
  match entryToken rlToken, apiToken with
  | some token, .ok (some apiToken) =>
    match verify site.libs token apiToken site.baseUrl.text now with
    | .ok verified => [verified.discordId, (verified.actorId.getD []).filter (· ≠ ':')]
    | .error _ => []
  | _, _ => []

end

/-! ### What the pages keep -/

/-- The placeholders and what replaces them, in this order. -/
def replacements (p : PageParam) (baseUrl guildId param token : Text) (readOnly : Bool) :
    List (Text × Text) :=
  [("__BASE_URL__".toList, baseUrl), ("__GUILD_ID__".toList, guildId), (p.placeholder, param),
    (p.tokenPlaceholder, token),
    ("__READ_ONLY__".toList, flagText readOnly)]

/-- The script after the quote that opens the literal of the guild. -/
def fromGuild (p : PageParam) (guildId param rest : Text) : Text :=
  guildId ++ '\'' :: (p.toParam ++ '\'' :: (param ++ '\'' :: rest))

/-- The literals of the ids end at the quotes of the template and denote the ids, and no replacement
finds its placeholder in what an earlier one has put in. -/
structure PageKept {p : PageParam} (t : AdminTemplate p) (baseUrl guildId param token : Text)
    (readOnly : Bool) (page : Text) : Prop where
  untouched : Text.Untouched t.text (replacements p baseUrl guildId param token readOnly) t.text
  literals : ∃ rest,
    scriptText page =
      some (p.lead ++ '\'' ::
        (baseUrl ++ '\'' :: (PageParam.toGuild ++ '\'' :: fromGuild p guildId param rest))) ∧
    JsLiteral.readLiteral p.strict (fromGuild p guildId param rest) =
      some (Text.units guildId, p.toParam ++ '\'' :: (param ++ '\'' :: rest)) ∧
    JsLiteral.readLiteral p.strict (param ++ '\'' :: rest) = some (Text.units param, rest)

/-- The ids of a path, and what else goes into the page's token, can stand in the page as they
are. -/
structure PlainPath (p : PageParam) (guildId param : Text) (inToken : List Text) : Prop where
  literal : ∀ c ∈ guildId ++ param, c ∉ ['\'', '\\', '\n', '\r', nullChar]
  /-- No end tag of a script is in the ids and what the script has between them. -/
  element : ScriptState.data.run (guildId ++ '\'' :: (p.toParam ++ '\'' :: param)) ≠ none
  guildId : ∀ name ∈ [p.placeholder, p.tokenPlaceholder, "__READ_ONLY__".toList],
    (Pattern.literal name).occurs guildId = false
  param : ∀ name ∈ [p.tokenPlaceholder, "__READ_ONLY__".toList],
    (Pattern.literal name).occurs param = false
  token : ∀ s ∈ inToken, (Pattern.literal "__READ_ONLY__".toList).occurs s = false

section

variable {p : PageParam} (t : AdminTemplate p) (baseUrl : SiteUrl) (guildId param token : Text)
  (readOnly : Bool)

/-- No fence is in a placeholder. -/
private theorem fence_notMem {name : Text} (hname : name ∈ p.placeholders) {c : Char}
    (hc : c ∈ ['"', '/', '\'', '\n', '<']) : c ∉ name := by
  have hfences : ∀ p : PageParam, ∀ name ∈ p.placeholders,
      ['"', '/', '\'', '\n', '<'].all (fun c => decide (c ∉ name)) := by
    intro p
    cases p <;> decide
  exact of_decide_eq_true (List.all_eq_true.1 (hfences p name hname) c hc)

private theorem placeholder_ne_nil {name : Text} (hname : name ∈ p.placeholders) : name ≠ [] := by
  have hall : ∀ p : PageParam, ∀ name ∈ p.placeholders, name ≠ [] := by
    intro p
    cases p <;> decide
  exact hall p name hname

/-- The texts that the script has around the ids hold no placeholder, nor does one placeholder hold
another. -/
private theorem plain_placeholders {name : Text} (hname : name ∈ p.placeholders) :
    (∀ s ∈ [scriptStart ++ p.lead, PageParam.toGuild, p.toParam],
      (Pattern.literal name).occurs s = false) ∧
      ∀ s ∈ p.placeholders, s = name ∨ (Pattern.literal name).occurs s = false := by
  have hall : ∀ p : PageParam, ∀ name ∈ p.placeholders,
      (∀ s ∈ [scriptStart ++ p.lead, PageParam.toGuild, p.toParam],
        (Pattern.literal name).occurs s = false) ∧
        ∀ s ∈ p.placeholders, s = name ∨ (Pattern.literal name).occurs s = false := by
    intro p
    cases p <;> decide
  exact hall p name hname

private theorem fenced_cells {name : Text} (hname : name ∈ p.placeholders) :
    t.cells.Fenced name := by
  obtain ⟨hscript, hplaces⟩ := plain_placeholders hname
  have hbody : (Pattern.literal name).occurs (t.body ++ (scriptStart ++ p.lead)) = false := by
    have hsep := Pattern.separates_literal (fence_notMem hname (c := '<') (by simp))
    have hstart := hscript _ List.mem_cons_self
    change (Pattern.literal name).occurs ([] ++ '<' :: ("script>".toList ++ p.lead)) =
      false at hstart
    change (Pattern.literal name).occurs (t.body ++ '<' :: ("script>".toList ++ p.lead)) = false
    rw [Pattern.occurs_append_sep hsep, Bool.or_eq_false_iff] at hstart
    rw [Pattern.occurs_append_sep hsep, t.plain _ (by simp) name hname, hstart.2, Bool.or_false]
  have hfence : ∀ e ∈ t.cells, e.2 ∈ ['"', '/', '\'', '\n', '<'] := by simp [AdminTemplate.cells]
  have htext : ∀ s ∈ [t.head, t.body, t.code, t.gap, t.tail], (Cell.text s).Plain name :=
    fun s hs => t.plain s hs name hname
  have hplace : ∀ n ∈ p.placeholders, (Cell.place n).Plain name := hplaces
  intro e he
  refine ⟨fence_notMem hname (hfence e he), ?_⟩
  simp only [AdminTemplate.cells, List.mem_cons, List.not_mem_nil, or_false] at he
  rcases he with rfl | rfl | rfl | rfl | rfl | rfl | rfl | rfl | rfl | rfl | rfl | rfl | rfl
  · exact htext _ (by simp)
  · exact hplace _ (by simp [PageParam.placeholders])
  · exact hbody
  · exact hplace _ (by simp [PageParam.placeholders])
  · exact hscript _ (by simp)
  · exact hplace _ (by simp [PageParam.placeholders])
  · exact hscript _ (by simp)
  · exact hplace _ (by simp [PageParam.placeholders])
  · exact htext _ (by simp)
  · exact hplace _ (by simp [PageParam.placeholders])
  · exact htext _ (by simp)
  · exact hplace _ (by simp [PageParam.placeholders])
  · exact htext _ (by simp)

private theorem ready_cells :
    Template.Ready t.text (replacements p baseUrl.text guildId param token readOnly) t.cells
    [] := by
  have hnames : (replacements p baseUrl.text guildId param token readOnly).map Prod.fst =
    p.placeholders := rfl
  have hname : ∀ e ∈ replacements p baseUrl.text guildId param token readOnly,
      e.1 ∈ p.placeholders := fun e he =>
    hnames ▸ List.mem_map_of_mem he
  have hplaced : ∀ n ∈ p.placeholders, (.place n, '\'') ∈ t.cells := fun n hn => by
    simp only [PageParam.placeholders, List.mem_cons, List.not_mem_nil, or_false] at hn
    rcases hn with rfl | rfl | rfl | rfl | rfl <;> simp [AdminTemplate.cells]
  refine Template.ready ?_ (fun e he => placeholder_ne_nil (hname e he))
    (fun e he => fenced_cells t (hname e he)) ?_ rfl
  · rw [hnames]
    cases p <;> decide
  · intro e he
    exact List.countP_pos_iff.2 ⟨_, hplaced e.1 (hname e he), decide_eq_true rfl⟩

/-- The page with every value in its place. -/
theorem fill_cells :
    (Template.fill (replacements p baseUrl.text guildId param token readOnly) t.cells).written =
    t.head ++ '"' :: (baseUrl.text ++ '/' ::
      (t.body ++ (scriptStart ++ (p.lead ++ '\'' :: (baseUrl.text ++ '\'' ::
        (PageParam.toGuild ++ '\'' :: fromGuild p guildId param
          (t.code ++ '\'' :: (token ++ '\'' :: (t.gap ++ '\'' ::
            (flagText readOnly ++ '\'' :: (t.tail ++ ['\n']))))))))))) := by
  have hfill : Template.fill (replacements p baseUrl.text guildId param token readOnly) t.cells =
      [(.text t.head, '"'), (.value baseUrl.text, '/'),
        (.text (t.body ++ (scriptStart ++ p.lead)), '\''),
        (.value baseUrl.text, '\''), (.text PageParam.toGuild, '\''), (.value guildId, '\''),
          (.text p.toParam, '\''),
        (.value param, '\''), (.text t.code, '\''), (.value token, '\''), (.text t.gap, '\''),
        (.value (flagText readOnly), '\''), (.text t.tail, '\n')] := by
    cases p <;> rfl
  rw [hfill]
  simp only [Template.written_cons, Cell.written, fromGuild, List.append_assoc]
  rfl

/-- The replacements find their placeholders at their places only. -/
theorem untouched_iff :
    Text.Untouched t.text (replacements p baseUrl.text guildId param token readOnly) t.text ↔
    (∀ name ∈ [p.placeholder, p.tokenPlaceholder, "__READ_ONLY__".toList],
      (Pattern.literal name).occurs guildId = false) ∧
      (∀ name ∈ [p.tokenPlaceholder, "__READ_ONLY__".toList],
        (Pattern.literal name).occurs param = false) ∧
        (Pattern.literal "__READ_ONLY__".toList).occurs token = false := by
  have hbase : ∀ name ∈ p.placeholders, (Pattern.literal name).occurs baseUrl.text = false :=
    baseUrl.noPlaceholder p
  refine (ready_cells t baseUrl guildId param token readOnly).untouched_iff.trans ?_
  simp only [replacements, Template.Clear, PageParam.placeholders, List.forall_mem_cons] at hbase ⊢
  constructor
  · rintro ⟨-, -, ⟨hguild, -⟩, ⟨hparam, hguild', -⟩, ⟨htoken, hparam', hguild'', -⟩, -⟩
    exact ⟨⟨hguild, hguild', hguild'', List.forall_mem_nil _⟩,
      ⟨hparam, hparam', List.forall_mem_nil _⟩, htoken⟩
  · rintro ⟨⟨hguild, hguild', hguild'', -⟩, ⟨hparam, hparam', -⟩, htoken⟩
    exact ⟨List.forall_mem_nil _, ⟨hbase.2.1, List.forall_mem_nil _⟩,
      ⟨hguild, hbase.2.2.1, List.forall_mem_nil _⟩,
      ⟨hparam, hguild', hbase.2.2.2.1, List.forall_mem_nil _⟩,
        ⟨htoken, hparam', hguild'', hbase.2.2.2.2.1, List.forall_mem_nil _⟩,
      trivial⟩

private theorem readLiterals_iff (rest : Text) :
    JsLiteral.readLiteral p.strict (fromGuild p guildId param rest) =
        some (Text.units guildId, p.toParam ++ '\'' :: (param ++ '\'' :: rest)) ∧
      JsLiteral.readLiteral p.strict (param ++ '\'' :: rest) = some (Text.units param, rest) ↔
      ∀ c ∈ guildId ++ param, c ∉ ['\'', '\\', '\n', '\r'] := by
  rw [fromGuild, JsLiteral.readLiteral_iff, JsLiteral.readLiteral_iff, List.forall_mem_append]

/-- The page's own text around the ids is read as it is, and opens no other element. -/
private theorem lead_plain (p : PageParam) :
    ∀ s ∈ [p.lead, PageParam.toGuild, p.toParam, ['\'']], '<' ∉ s ∧ '\r' ∉ s ∧ nullChar ∉ s := by
  cases p <;> decide

private theorem readAsOther_subset : ['\r', nullChar] ⊆ ['\'', '\\', '\n', '\r', nullChar] ∧
    ['\'', '\\', '\n', '\r'] ⊆ ['\'', '\\', '\n', '\r', nullChar] := by
  simp

private theorem occurs_scriptStart {s : Text} (hs : '<' ∉ s) :
    (Pattern.literal scriptStart).occurs s = false := by
  have hhead := Pattern.occurs_append_of_head (p := Pattern.literal "script>".toList)
    (t := fun d => decide (d = '<'))
    (fun c hc => decide_eq_false (ne_of_mem_of_not_mem hc hs)) []
  rw [List.append_nil] at hhead
  exact hhead.trans rfl

/-- The script begins with the ids in their places just when they have no character that is read as
another, and do not end the element. -/
theorem exists_script_iff (rest : Text) :
    (∃ r, scriptText (t.head ++ '"' ::
      (baseUrl.text ++ '/' :: (t.body ++ (scriptStart ++ (p.lead ++ '\'' ::
        (baseUrl.text ++ '\'' :: (PageParam.toGuild ++ '\'' :: fromGuild p guildId param rest))))))) =
        some (p.lead ++ '\'' ::
          (baseUrl.text ++ '\'' :: (PageParam.toGuild ++ '\'' :: fromGuild p guildId param r)))) ↔
      (∀ c ∈ guildId ++ param, c ∉ ['\r', nullChar]) ∧
        ScriptState.data.run (guildId ++ '\'' :: (p.toParam ++ '\'' :: param)) ≠ none := by
  let opening := p.lead ++ '\'' :: (baseUrl.text ++ '\'' :: (PageParam.toGuild ++ ['\'']))
  let ids := guildId ++ '\'' :: (p.toParam ++ '\'' :: param)
  have hbegin : ∀ r, p.lead ++ '\'' ::
    (baseUrl.text ++ '\'' :: (PageParam.toGuild ++ '\'' :: fromGuild p guildId param r)) =
      (opening ++ ids) ++ '\'' :: r := fun r => by
    simp only [opening, ids, fromGuild, List.append_assoc, List.cons_append, List.nil_append]
  have hbefore : ∀ s, t.head ++ '"' :: (baseUrl.text ++ '/' :: (t.body ++ s)) =
      (t.head ++ '"' :: (baseUrl.text ++ '/' :: t.body)) ++ s := fun s => by
    simp only [List.append_assoc, List.cons_append]
  have hbase : ∀ c ∈ ['\r', nullChar], c ∉ baseUrl.text := fun c hc hmem =>
    baseUrl.literal c hmem (readAsOther_subset.1 hc)
  have hopening : '<' ∉ opening := by
    simp [opening, (lead_plain p _ (List.mem_cons_self)).1,
      (lead_plain p PageParam.toGuild (by simp)).1, baseUrl.bracket]
  have hcr : '\r' ∉ t.head ++ '"' :: (baseUrl.text ++ '/' :: t.body) := by
    simp [(t.first t.head (by simp)).2, (t.first t.body (by simp)).2, hbase '\r' (by simp)]
  have hfirst : (Pattern.literal scriptStart).occurs
      (t.head ++ '"' :: (baseUrl.text ++ '/' :: t.body)) = false := by
    rw [Pattern.occurs_append_sep (Pattern.separates_literal (by decide)),
      Pattern.occurs_append_sep (Pattern.separates_literal (by decide)),
        (t.first t.head (by simp)).1,
      (t.first t.body (by simp)).1, occurs_scriptStart baseUrl.bracket]
    rfl
  have hplain : (∀ c ∈ opening ++ ids, c ∉ ['\r', nullChar]) ↔
      ∀ c ∈ guildId ++ param, c ∉ ['\r', nullChar] := by
    have hfixed : ∀ s ∈ [p.lead, PageParam.toGuild, p.toParam, ['\'']], ∀ c ∈ s,
        c ∉ ['\r', nullChar] := fun s hs c hc h => by
      obtain ⟨-, hreturn, hnull⟩ := lead_plain p s hs
      rcases List.mem_pair.1 h with rfl | rfl
      · exact hreturn hc
      · exact hnull hc
    have hurl : ∀ c ∈ baseUrl.text, c ∉ ['\r', nullChar] := fun c hc h => hbase c h hc
    simp only [List.forall_mem_cons, List.not_mem_nil, false_imp_iff, implies_true,
      and_true] at hfixed
    obtain ⟨hlead, htoGuild, htoParam, hquote⟩ := hfixed
    simp only [opening, ids, List.forall_mem_append, List.forall_mem_cons]
    constructor
    · rintro ⟨-, hguild, -, -, -, hparam⟩
      exact ⟨hguild, hparam⟩
    · rintro ⟨hguild, hparam⟩
      exact ⟨⟨hlead, hquote, hurl, hquote, htoGuild, hquote, List.forall_mem_nil _⟩, hguild, hquote,
        htoParam, hquote, hparam⟩
  have hrun : ScriptState.data.run (opening ++ ids) = ScriptState.data.run ids := by
    rw [ScriptState.run_append, ScriptState.run_data hopening, Option.bind_some]
  simp only [hbegin]
  rw [hbefore, exists_scriptText_iff hcr hfirst, hplain, hrun]

/-- The page keeps its ids just when they are plain, and its token holds no placeholder. -/
theorem pageKept_iff : PageKept t baseUrl.text guildId param token readOnly
    (Text.replaceEach (replacements p baseUrl.text guildId param token readOnly) t.text) ↔
      PlainPath p guildId param [token] := by
  have hready := ready_cells t baseUrl guildId param token readOnly
  have hpage : Text.Untouched t.text (replacements p baseUrl.text guildId param token readOnly)
    t.text →
      Text.replaceEach (replacements p baseUrl.text guildId param token readOnly) t.text = _ :=
    fun h =>
      (hready.replaceEach_eq_fill (hready.untouched_iff.1 h)).trans
        (fill_cells t baseUrl guildId param token readOnly)
  constructor
  · rintro ⟨huntouched, r, hscript, hliterals⟩
    rw [hpage huntouched] at hscript
    obtain ⟨hread, helement⟩ := (exists_script_iff t baseUrl guildId param _).1 ⟨r, hscript⟩
    have hliteral := (readLiterals_iff guildId param r).1 hliterals
    obtain ⟨hguild, hparam, htoken⟩ :=
      (untouched_iff t baseUrl guildId param token readOnly).1 huntouched
    refine ⟨fun c hc => ?_, helement, hguild, hparam, fun s hs => ?_⟩
    · have hquote := hliteral c hc
      have hnull := hread c hc
      simp only [List.mem_cons, List.not_mem_nil, or_false, not_or] at hquote hnull ⊢
      tauto
    · rw [List.mem_singleton.1 hs]
      exact htoken
  · intro h
    have huntouched := (untouched_iff t baseUrl guildId param token readOnly).2
      ⟨h.guildId, h.param, h.token _ List.mem_cons_self⟩
    have hread : ∀ c ∈ guildId ++ param, c ∉ ['\r', nullChar] := fun c hc hmem =>
      h.literal c hc (readAsOther_subset.1 hmem)
    have hliteral : ∀ c ∈ guildId ++ param, c ∉ ['\'', '\\', '\n', '\r'] := fun c hc hmem =>
      h.literal c hc (readAsOther_subset.2 hmem)
    obtain ⟨r, hscript⟩ := (exists_script_iff t baseUrl guildId param _).2 ⟨hread, h.element⟩
    rw [← hpage huntouched] at hscript
    exact ⟨huntouched, r, hscript, (readLiterals_iff guildId param r).2 hliteral⟩

end

/-! ### The tokens -/

private theorem occurs_readOnly {s : Text} (hs : '_' ∉ s) :
    (Pattern.literal "__READ_ONLY__".toList).occurs s = false := by
  have hhead := Pattern.occurs_append_of_head (p := Pattern.literal "_READ_ONLY__".toList)
    (t := fun d => decide (d = '_'))
    (fun c hc => decide_eq_false (ne_of_mem_of_not_mem hc hs)) []
  rw [List.append_nil] at hhead
  exact hhead.trans rfl

/-- The page's token holds a placeholder just when one of its ids does. -/
theorem occurs_mintIframeSession (hmac : Mac) (discordId guildId roleId : Text) (readOnly : Bool)
    (actorId : Option Text) (secret : Text) (now : Timestamp) :
    (Pattern.literal "__READ_ONLY__".toList).occurs
        (mintIframeSession hmac discordId guildId roleId readOnly actorId secret now) = false ↔
      ∀ s ∈ [discordId, guildId, roleId, (actorId.getD []).filter (· ≠ ':')],
        (Pattern.literal "__READ_ONLY__".toList).occurs s = false := by
  have hsep : (Pattern.literal "__READ_ONLY__".toList).Separates ':' :=
    Pattern.separates_literal (by decide)
  let ro := if readOnly then "1".toList else "0".toList
  let exp := Text.ofInt (now.seconds + if readOnly then iframeRoTtlSecs else iframeTtlSecs)
  have htoken : ∃ bs, mintIframeSession hmac discordId guildId roleId readOnly actorId secret now =
      "ifs".toList ++ ':' :: (discordId ++ ':' :: (guildId ++ ':' :: (roleId ++ ':' :: (ro ++ ':' ::
        ((actorId.getD []).filter (· ≠ ':') ++ ':' :: (exp ++ ':' :: Text.hexEncode bs)))))) := by
    refine ⟨hmac secret (iframePayload discordId guildId roleId readOnly actorId now), ?_⟩
    simp only [mintIframeSession, iframePayload, iframePrefix, ro, exp, List.append_assoc,
      List.cons_append]
    rfl
  obtain ⟨bs, htoken⟩ := htoken
  have hro : '_' ∉ ro := by
    cases readOnly <;> decide
  have hexp : '_' ∉ exp := fun h => by
    rcases Text.isDigit_or_eq_minus_of_mem_ofInt h with hdigit | hminus
    · exact absurd hdigit (by decide)
    · exact absurd hminus (by decide)
  have hhex : '_' ∉ Text.hexEncode bs :=
    fun h => absurd (Text.isAlphanum_of_mem_hexEncode h) (by decide)
  rw [htoken]
  simp only [Pattern.occurs_append_sep hsep, occurs_readOnly hro, occurs_readOnly hexp,
    occurs_readOnly hhex,
    occurs_readOnly (by decide : '_' ∉ "ifs".toList), Bool.or_eq_false_iff, List.forall_mem_cons]
  tauto

private theorem of_bind_eq_ok {ε α β : Type} {x : Except ε α} {f : α → Except ε β} {b : β}
    (h : x >>= f = .ok b) :
    ∃ a, x = .ok a ∧ f a = .ok b := by
  cases x with
  | error e => cases h
  | ok a => exact ⟨a, rfl, h⟩

section

variable {site : AdminSite} {now : Timestamp} {guildId param page : Text} {cookie : Option Text}

private theorem formAdminPage_eq {template : AdminTemplate .form} {ifs : Option Text}
    (h : formAdminPage site now template guildId param cookie ifs = .ok page) :
    page = Text.replaceEach (replacements .form site.baseUrl.text guildId param
      ((entryToken ifs).getD [])
      (entryToken ifs).isSome) template.text := by
  have htoken : ∀ roToken, checkReadOnlyPageEntry site now guildId ifs = .ok roToken →
      roToken = entryToken ifs := by
    intro roToken hro
    rw [checkReadOnlyPageEntry] at hro
    split at hro
    · rename_i hnone
      cases hro
      exact hnone.symm
    · rename_i token hsome
      split at hro
      · cases hro
      · split at hro
        · cases hro
        · cases hro
          exact hsome.symm
  obtain ⟨roToken, hro, h⟩ := of_bind_eq_ok h
  obtain rfl := htoken roToken hro
  split at h
  · obtain ⟨_, -, h⟩ := of_bind_eq_ok h
    cases h
    rfl
  · cases h
    rfl

private theorem roleConfigPage_eq {rlToken session : Option Text}
    {apiToken : Except AppError (Option Text)} {readOnly : Bool}
    (hentry : iframeEntry site now guildId param rlToken apiToken = .ok (session, readOnly))
    (h : roleConfigPage site now guildId param cookie rlToken apiToken = .ok page) :
    page = Text.replaceEach (replacements .role site.baseUrl.text guildId param
      (session.getD []) readOnly)
      site.roleConfigTemplate.text := by
  obtain ⟨e, he, h⟩ := of_bind_eq_ok h
  obtain rfl := Except.ok.inj (he.symm.trans hentry)
  dsimp only at h
  split at h
  · obtain ⟨_, -, h⟩ := of_bind_eq_ok h
    cases h
    rfl
  · cases h
    rfl

/-- The token that the page is given is empty, or minted for the ids of the path. -/
theorem session_of_iframeEntry {rlToken session : Option Text}
    {apiToken : Except AppError (Option Text)} {readOnly : Bool}
    (hentry : iframeEntry site now guildId param rlToken apiToken = .ok (session, readOnly)) :
    (session = none ∧ tokenIds site now rlToken apiToken = []) ∨
      ∃ discordId actorId,
        session = some (mintIframeSession site.libs.hmac discordId guildId param readOnly actorId
          site.sessionSecret now) ∧
        tokenIds site now rlToken apiToken = [discordId, (actorId.getD []).filter (· ≠ ':')] := by
  rw [iframeEntry] at hentry
  rw [tokenIds.eq_def]
  split at hentry
  · rename_i hnone
    cases hentry
    exact Or.inl ⟨rfl, by rw [hnone]⟩
  · rename_i token hsome
    split at hentry
    · rename_i session readOnly henter
      cases hentry
      rw [enterWith.eq_def] at henter
      split at henter
      · cases henter
      · cases henter
      · split at henter
        · cases henter
        · rename_i verified hverify
          split at henter
          · cases henter
          · cases henter
            refine Or.inr ⟨_, _, rfl, ?_⟩
            simp only [hsome, hverify]
    · cases hentry

end

/-! ### The three pages -/

private theorem plainPath_iff {p : PageParam} {guildId param : Text} {inToken inToken' : List Text}
    (h : (∀ s ∈ [guildId, param], (Pattern.literal "__READ_ONLY__".toList).occurs s = false) →
      ((∀ s ∈ inToken, (Pattern.literal "__READ_ONLY__".toList).occurs s = false) ↔
        ∀ s ∈ inToken', (Pattern.literal "__READ_ONLY__".toList).occurs s = false)) :
    PlainPath p guildId param inToken ↔ PlainPath p guildId param inToken' := by
  have hids : ∀ l, PlainPath p guildId param l →
      ∀ s ∈ [guildId, param], (Pattern.literal "__READ_ONLY__".toList).occurs s = false :=
          fun l hl s hs => by
    rcases List.mem_pair.1 hs with rfl | rfl
    · exact hl.guildId _ (by simp)
    · exact hl.param _ (by simp)
  constructor
  · exact fun hl => { hl with token := (h (hids _ hl)).1 hl.token }
  · exact fun hl => { hl with token := (h (hids _ hl)).2 hl.token }

private theorem formAdminPage_kept_iff {site : AdminSite} {now : Timestamp}
    {guildId formId page : Text} {cookie ifs : Option Text} {template : AdminTemplate .form}
    (h : formAdminPage site now template guildId formId cookie ifs = .ok page) :
    PageKept template site.baseUrl.text guildId formId ((entryToken ifs).getD [])
    (entryToken ifs).isSome page ↔
      PlainPath .form guildId formId (entryToken ifs).toList := by
  rw [formAdminPage_eq h, pageKept_iff]
  refine plainPath_iff fun _ => ?_
  cases entryToken ifs with
  | none => exact iff_of_true (by decide) (by simp)
  | some token => exact Iff.rfl

/-- The ids in the path of an admin page end where their literals end and denote themselves, and no
replacement meets its placeholder in what is put in, just when the path is plain. -/
theorem path_ids_kept_iff (site : AdminSite) (now : Timestamp) (guildId : Text)
    (cookie : Option Text) :
    (∀ formId ifs page, builderPage site now guildId formId cookie ifs = .ok page →
      (PageKept site.builderTemplate site.baseUrl.text guildId formId ((entryToken ifs).getD [])
        (entryToken ifs).isSome page ↔
        PlainPath .form guildId formId (entryToken ifs).toList)) ∧
    (∀ formId ifs page, responsesPage site now guildId formId cookie ifs = .ok page →
      (PageKept site.responsesTemplate site.baseUrl.text guildId formId ((entryToken ifs).getD [])
        (entryToken ifs).isSome page ↔
        PlainPath .form guildId formId (entryToken ifs).toList)) ∧
    ∀ roleId rlToken apiToken session readOnly page,
      iframeEntry site now guildId roleId rlToken apiToken = .ok (session, readOnly) →
      roleConfigPage site now guildId roleId cookie rlToken apiToken = .ok page →
      (PageKept site.roleConfigTemplate site.baseUrl.text guildId roleId
        (session.getD []) readOnly page ↔
        PlainPath .role guildId roleId (tokenIds site now rlToken apiToken)) := by
  refine ⟨fun formId ifs page => formAdminPage_kept_iff, fun formId ifs page =>
    formAdminPage_kept_iff,
    fun roleId rlToken apiToken session readOnly page hentry hpage => ?_⟩
  rw [roleConfigPage_eq hentry hpage, pageKept_iff]
  refine plainPath_iff fun hids => ?_
  rcases session_of_iframeEntry hentry with ⟨rfl, hids'⟩ | ⟨discordId, actorId, rfl, hids'⟩
  · rw [hids']
    exact iff_of_true (by decide) (List.forall_mem_nil _)
  · rw [hids', Option.getD_some, List.forall_mem_singleton, occurs_mintIframeSession]
    simp only [List.forall_mem_cons] at hids ⊢
    tauto

/-- The builder's template between its placeholders, in brief. -/
def briefTemplate : AdminTemplate .form where
  head := "<link rel=\"icon\" href=".toList
  body := "favicon.ico\">\n".toList
  code := ";\nconst IFS_TOKEN = ".toList
  gap := ";\nconst READ_ONLY = ".toList
  tail := " === '1';\n</script>".toList
  plain := by decide
  first := by decide

def briefRoleTemplate : AdminTemplate .role where
  head := "<link rel=\"icon\" href=".toList
  body := "favicon.ico\">\n".toList
  code := ";\nconst IFRAME_TOKEN = ".toList
  gap := ";\nconst READ_ONLY = ".toList
  tail := " === '1';\n</script>".toList
  plain := by decide
  first := by decide

/-- A site whose gateway takes everybody for a manager. -/
def openSite : AdminSite where
  libs := ⟨concatMac, fun _ => none, fun _ => none, fun _ => none⟩
  url := letterEncoding
  baseUrl := {
    text := "https://forms.test".toList
    quote := by decide
    bracket := by decide
    literal := fun c hc => of_decide_eq_true (List.all_eq_true.1
      (by decide : "https://forms.test".toList.all fun c =>
        decide (c ∉ ['\'', '\\', '\n', '\r', nullChar])) c hc)
    noPlaceholder := fun p => by cases p <;> decide }
  sessionSecret := "secret".toList
  guildPermission := fun _ _ => .body (.object [("is_manager".toList, .bool true)])
  builderTemplate := briefTemplate
  responsesTemplate := briefTemplate
  roleConfigTemplate := briefRoleTemplate

def adaCookie : Text :=
  mintSession concatMac letterEncoding "ada".toList "Ada".toList 1700003600 "secret".toList

private theorem builderPage_openSite (guildId formId : Text) :
    ∃ page, builderPage openSite sampleTime guildId formId (some adaCookie) none = .ok page := by
  have hmanager : requireManagerHtml openSite sampleTime (some adaCookie) guildId =
      .ok "ada".toList := by
    have hsession : verifySession concatMac letterEncoding adaCookie "secret".toList sampleTime =
        some ("ada".toList, "Ada".toList) := by decide
    rw [requireManagerHtml, openSite, hsession]
    rfl
  refine ⟨Text.replaceEach (replacements .form openSite.baseUrl.text guildId formId [] false)
    briefTemplate.text, ?_⟩
  rw [builderPage, formAdminPage, hmanager]
  rfl

theorem path_ids_kept_iff_plain : ∃ page,
    builderPage openSite sampleTime "42".toList "7".toList (some adaCookie) none = .ok page ∧
      PageKept briefTemplate openSite.baseUrl.text "42".toList "7".toList [] false page := by
  obtain ⟨page, hpage⟩ := builderPage_openSite "42".toList "7".toList
  refine ⟨page, hpage,
    ((path_ids_kept_iff openSite sampleTime "42".toList (some adaCookie)).1 _ _ _ hpage).2 ?_⟩
  exact {
    literal := fun c hc => of_decide_eq_true (List.all_eq_true.1
      (by decide : "427".toList.all fun c => decide (c ∉ ['\'', '\\', '\n', '\r', nullChar])) c hc)
    element := by decide
    guildId := by decide
    param := by decide
    token := by decide }

/-- A form id that closes its literal. -/
theorem path_ids_not_kept : ∃ page,
    builderPage openSite sampleTime "42".toList "';alert(1)//".toList (some adaCookie) none =
      .ok page ∧
      ¬PageKept briefTemplate openSite.baseUrl.text "42".toList "';alert(1)//".toList
      [] false page := by
  obtain ⟨page, hpage⟩ := builderPage_openSite "42".toList "';alert(1)//".toList
  refine ⟨page, hpage, fun h => ?_⟩
  have hplain := (formAdminPage_kept_iff hpage).1 h
  exact hplain.literal '\'' (by decide) (by decide)

end FormRespondentRole
