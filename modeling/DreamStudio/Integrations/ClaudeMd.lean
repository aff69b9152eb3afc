import DreamStudio.Library.Find

namespace DreamStudio.ClaudeMd

open Library

def routingBegin : String := "<!-- BEGIN AUTO-ROUTING -->"

def routingEnd : String := "<!-- END AUTO-ROUTING -->"

abbrev findBegin : List Char → Option Nat := find routingBegin.toList

abbrev findEnd : List Char → Option Nat := find routingEnd.toList

def enforcementBlock : List String := [
  "# DREAM STUDIO — MANDATORY OPERATING CONSTRAINTS\n",
  "# These constraints apply in ALL execution modes\n",
  "# including --dangerously-skip-permissions.\n",
  "# They are not suggestions. Violating them breaks\n",
  "# traceability and defeats the purpose of Dream Studio.\n",
  "\n",
  "## Active project tracking:\n",
  "Dream Studio tracks the active project in its SQLite authority.\n",
  "To see registered projects, call get_project_list(source_root=...).\n",
  "To set the active project, call set_active_project(project_id=..., source_root=...).\n",
  "\n",
  "## Before starting ANY work:\n",
  "Invoke ds-project:resume — it calls get_project_state() and surfaces\n",
  "the next work order. When ready, call start_work_order(work_order_id=..., ",
  "source_root=...).\n",
  "This loads your module boundary, task list, design brief, and gate requirements.\n",
  "Working without it means working blind.\n",
  "\n",
  "## During work:\n",
  "- Stay within the module_boundary in context.md\n",
  "- Do not create files outside that boundary\n",
  "- Complete tasks in order by calling:\n",
  "  mark_task_done(work_order_id=..., task_id=..., source_root=...)\n",
  "\n",
  "## Before finishing:\n",
  "Call close_work_order(work_order_id=..., source_root=...).\n",
  "Gates must pass. If a gate fails, address it.\n",
  "Do not pass force=True without operator approval.\n",
  "\n",
  "## If you do not have an active work order:\n",
  "Call get_next_work_order(project_id=..., source_root=...) or\n",
  "invoke ds-project:resume to orient and start the next work order.\n",
  "\n",
  "## Output discipline:\n",
  "Write output to exactly one of three homes. Diagnostic output at the repo root is ",
  "forbidden,\n",
  "and `.planning` on disk is forbidden — the on-edit enforcement hook DENIES disk ",
  "writes to\n",
  "`.planning/**` (zero-disk).\n",
  "\n",
  "Type 1 — Repo-internal working state. PR drafts, inventories, recovery reports, working ",
  "notes.\n",
  "Location: the files.db docstore (NOT disk). Author with:\n",
  "  ds files write \"<name>\" --category planning [--work-order <id>]\n",
  "  (read: ds files read \"<name>\"  ·  list: ds files list --category planning)\n",
  "Use the former `.planning/` subdirectory as the logical name prefix:\n",
  "`phases/`, `workstreams/<id>/`, `specs/`, `workflows/`, ",
  "`work-orders/`, `audits/`, `snapshots/`, `personal/`\n",
  "— e.g. name `workstreams/<id>/pr-body.md`.\n",
  "\n",
  "Type 2 — Project workspace. Briefs, milestones, work orders, exports. Spans repos; tied to ",
  "a Dream Studio project.\n",
  "Location: `~/.dream-studio/projects/<project-id>/`\n",
  "Prefer `ds` CLI commands over direct file writes.\n",
  "\n",
  "Type 3 — Session diagnostic output. Pytest captures, black/lint, drift gates, verification ",
  "greps. Disposable evidence-of-work.\n",
  "Location: `~/.dream-studio/diagnostics/<YYYY-MM-DD>/<repo-name>/<session-purpose>/`\n",
  "\n",
  "Examples:\n",
  "- Wrong: `py -m pytest > pytest-output.txt`\n",
  "- Right: `py -m pytest > ",
  "~/.dream-studio/diagnostics/2026-05-25/dream-studio-clean/test-run/pytest-output.txt`\n",
  "- Wrong: Write tool → `.planning/workstreams/<id>/pr-body.md` on disk (DENIED by the ",
  "enforcement hook)\n",
  "- Right: `ds files write \"workstreams/<id>/pr-body.md\" --category planning`\n",
  "\n",
  "Rules:\n",
  "- NEVER write diagnostic output to the repo root\n",
  "- NEVER write `.planning` working state to disk — author it in the docstore via ",
  "`ds files write`\n",
  "- If unsure where a file belongs, ask the operator before writing\n"]

def agentsImportBlock : List String := [
  "Skill routing, work-order types, and gate definitions are defined once in the",
  " generated universal target. Import it here:\n\n@AGENTS.md\n\n",
  "Regenerate it with `py -m integrations.compiler.agents_md --write` when canonical",
  " skills/workflows/packs change (the AGENTS.md drift gate enforces freshness)."]

/-- `_inject_routing_table`. -/
def injectRoutingTable (projectionContent routingTable : List Char) : List Char :=
  match findBegin projectionContent, findEnd projectionContent with
  | some beginIdx, some endIdx =>
    projectionContent.take (beginIdx + routingBegin.length) ++ '\n' :: routingTable ++
      projectionContent.drop endIdx
  | _, _ =>
    projectionContent ++
      '\n' :: routingBegin.toList ++ '\n' :: routingTable ++ '\n' :: routingEnd.toList ++ ['\n']

/-- `_build_claude_md`; the projection is `none` where its path is no file. -/
def buildClaudeMd (projection : Option (List Char)) : List Char :=
  enforcementBlock.flatMap String.toList ++
    '\n' :: injectRoutingTable (projection.getD []) (agentsImportBlock.flatMap String.toList)

inductive ClaudeMdDisposition
  | refused
  | created
  | spliced
  | unchanged
  deriving DecidableEq

structure ClaudeMdMerge where
  textToWrite : Option (List Char)
  disposition : ClaudeMdDisposition
  detail : String
  deriving DecidableEq

def missingMarkers (existing : List Char) : List String :=
  (if findBegin existing = none then [routingBegin] else []) ++
    if findEnd existing = none then [routingEnd] else []

def generatedBlock (generated : List Char) : List Char :=
  match findBegin generated, findEnd generated with
  | some genBegin, some genEnd =>
    if genBegin ≤ genEnd then
      (generated.take genEnd).drop (genBegin + routingBegin.length)
    else '\n' :: generated ++ ['\n']
  | _, _ => '\n' :: generated ++ ['\n']

/-- `merge_claude_md`. -/
def mergeClaudeMd (existing : Option (List Char)) (generated : List Char) : ClaudeMdMerge :=
  match existing with
  | none => ⟨some generated, .created, "no existing file; wrote the projection whole"⟩
  | some existing =>
    match findBegin existing, findEnd existing with
    | some beginIdx, some endIdx =>
      if endIdx < beginIdx then
        ⟨none, .refused, "left untouched: the end marker appears before the begin marker, so the " ++
          "generated region is not well formed. Fix the marker order first."⟩
      else
        let keepBefore := existing.take (beginIdx + routingBegin.length)
        let keepAfter := existing.drop endIdx
        let merged := keepBefore ++ generatedBlock generated ++ keepAfter
        if merged = existing then
          ⟨some existing, .unchanged, "generated region already current"⟩
        else
          let outsideBytes := keepBefore.length + keepAfter.length
          ⟨some merged, .spliced, "replaced only the generated region; " ++ toString outsideBytes ++
            " byte(s) outside it preserved"⟩
    | _, _ =>
      ⟨none, .refused, "left untouched: this file has no generated region to replace (missing " ++
        " and ".intercalate (missingMarkers existing) ++ "). Dream Studio will not overwrite " ++
        "hand-written instructions. To let it manage a section, add the two markers around the " ++
        "region it should own."⟩

/-- The first begin marker stands before the first end marker. -/
def WellFormed (text : List Char) : Prop :=
  ∃ beginIdx endIdx, findBegin text = some beginIdx ∧ findEnd text = some endIdx ∧
    beginIdx < endIdx

def Local (existing text : List Char) : Prop :=
  ∃ beginIdx endIdx, findBegin existing = some beginIdx ∧ findEnd existing = some endIdx ∧
    ∃ block, text =
      existing.take (beginIdx + routingBegin.length) ++ block ++ existing.drop endIdx

/-- A merge changes the region alone and is the same when it is made again, and is refused only
where there is no region. -/
def Splices (existing generated : List Char) : Prop :=
  match (mergeClaudeMd (some existing) generated).textToWrite with
  | some text => Local existing text ∧ mergeClaudeMd (some text) generated =
      ⟨some text, .unchanged, "generated region already current"⟩
  | none => ¬WellFormed existing

end DreamStudio.ClaudeMd
