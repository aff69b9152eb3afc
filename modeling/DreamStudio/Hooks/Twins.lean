import DreamStudio.Boundaries.Amended
import DreamStudio.Hooks.Answered
import DreamStudio.Hooks.Parity

namespace DreamStudio.Hooks

open Library WorkOrders

section Sites

variable {env : GateEnv} {t : HookAuthority} {file root : ResolvedPath} {id : String}

end Sites

section Runs

variable {env : GateEnv} {t : HookAuthority} {tier : Tier} {session : Option String}

/-- The session file is no empty object. -/
def SessionFile.Filled (f : SessionFile) : Prop := f ≠ .holds {}

end Runs

def Command.ofText (text : String) : Option Command :=
  if ascii : text.toList.all (fun c => decide (c.val < 128)) = true then
    some ⟨text, fun c mem => of_decide_eq_true (List.all_eq_true.mp ascii c mem)⟩
  else none

theorem Command.ofText_text (c : Command) : ofText c.text = some c :=
  dif_pos (List.all_eq_true.mpr fun d mem => decide_eq_true (c.ascii d mem))

end DreamStudio.Hooks
