import BeanCatalog.Report.Journal

namespace BeanCatalog

structure Session where
  registry : Registry Definition := {}
  /-- The latest entry first. -/
  entries : List JournalEntry := []
  /-- The resources whose loading has begun and not ended, the innermost first. -/
  loading : List Resource := []
  /-- The names that beans of the current scope have taken. -/
  usedNames : List String := []

/-- A step of reading. A failure ends the step and keeps the session. -/
abbrev Reading := ExceptT Failure (StateM Session)

namespace Session

def journal (s : Session) : List JournalEntry := s.entries.reverse

end Session

namespace Reading

def enter (e : JournalEntry) : Reading Unit := modify fun s => { s with entries := e :: s.entries }

def remark (r : Remark) : Reading Unit := enter (.remark r)

/-- A step with no names taken. However it ends, the names of the scope around it come back. -/
def withFreshNames {α : Type} (act : Reading α) : Reading α := fun s =>
  let (outcome, next) := act { s with usedNames := [] }
  (outcome, { next with usedNames := s.usedNames })

def whileLoading {α : Type} (r : Resource) (act : Reading α) : Reading α := fun s =>
  let (outcome, next) := act { s with loading := r :: s.loading, entries := .began r :: s.entries }
  (outcome,
    { next with
      loading := next.loading.filter fun q => !Resource.same r q
      entries := .ended r outcome.toBool :: next.entries })

/-- Makes registrations one after the other. No two definitions that reading registers are the
same. -/
def register (calls : List (RegistryCall Definition)) : Reading (Option Refusal) := do
  let run := (← get).registry.calls (fun _ _ => false) calls
  enter (.registering calls)
  modify fun s => { s with registry := run.registry }
  for r in run.replacements do remark (.replaced r)
  pure run.refusal

end Reading

end BeanCatalog
