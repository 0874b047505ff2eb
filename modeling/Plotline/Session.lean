import Plotline.Route.Analysis

/-!
# Sessions

* `Snapshot`: the analysis of a state of the blocks, routes included.
* `Validator`: what makes blocks of data; a session is given one.
* `Session`: an analyzer that keeps its last snapshot.
* `Session.analyze`: the kept snapshot if nothing that counts has changed, else a new one.
* `Session.invalidate`: forgets the snapshot.
* `Session.step`, `Session.after`, `Session.answers`: requests one after another.
-/

namespace Plotline

/-- The analysis of a state of the blocks, routes included. -/
structure Snapshot where
  analysis : Analysis
  routes : RouteAnalysis

def Snapshot.of (settings : Settings) (blocks : List Block) : Snapshot :=
  let analysis := Analysis.ofBlocks blocks settings.analysis
  ⟨analysis, RouteAnalysis.ofAnalysis blocks analysis settings⟩

/-- The snapshot of blocks, unless the settings hold something other than paths where paths are looked up. -/
def Snapshot.of? (settings : Settings) (blocks : List Block) : Except SettingsError Snapshot :=
  if Analysis.refuses blocks settings.analysis then .error .wrongShape else .ok (.of settings blocks)

/-- Two known lengths are equal as numbers or one and the same object, or neither is known. -/
def sameLength : Option FloatObject → Option FloatObject → Bool
  | none, none => true
  | some x, some y => x.worth.same y.worth
  | _, _ => false

/-- Two blocks are equal in all that counts. -/
def Block.same (a b : Block) : Bool :=
  a.id == b.id && a.content == b.content && a.path == b.path && a.title == b.title && sameLength a.width b.width &&
    sameLength a.height b.height

def sameBlocks : List Block → List Block → Bool
  | [], [] => true
  | a :: as, b :: bs => a.same b && sameBlocks as bs
  | _, _ => false

/-- What a snapshot was made of. -/
structure SnapshotKey where
  blocks : List Block
  /-- A value that asks for a new snapshot when it changes. -/
  trigger : Data

def SnapshotKey.same (a b : SnapshotKey) : Bool := sameBlocks a.blocks b.blocks && a.trigger.same b.trigger

/-- What makes a block of the data that describe it, or finds every fault of it. -/
abbrev Validator := Data → Checked Block

/-- An analyzer that keeps its last snapshot. -/
structure Session where
  settings : Settings
  validate : Validator := Block.ofData
  kept : Option (SnapshotKey × Snapshot) := none

namespace Session

/-- The kept snapshot, if it was made of the same. -/
def reuse? (s : Session) (key : SnapshotKey) : Option Snapshot :=
  (s.kept.filter fun k => key.same k.1).map (·.2)

/-- The snapshot of blocks, whether it was kept, and the session afterwards. -/
def analyze (s : Session) (blocks : List Block) (trigger : Data) :
    Except SettingsError (Snapshot × Bool × Session) :=
  let key : SnapshotKey := ⟨blocks, trigger⟩
  match s.reuse? key with
  | some snapshot => .ok (snapshot, true, s)
  | none => do
    let snapshot ← Snapshot.of? s.settings blocks
    .ok (snapshot, false, { s with kept := some (key, snapshot) })

def invalidate (s : Session) : Session := { s with kept := none }

/-- A block as it is given: a block proper, or data that describes one. -/
inductive Given where
  | block (b : Block)
  | data (d : Data)

/-- Why there is no snapshot. -/
inductive Failure where
  | record (e : RecordError)
  | settings (e : SettingsError)

inductive Request where
  | analyze (blocks : List Given) (trigger : Data)
  | invalidate

inductive Answer where
  /-- A snapshot, and whether it was kept. -/
  | analyzed (result : Except Failure (Snapshot × Bool))
  | forgotten

/-- The block that is given; a block proper is not looked at. -/
def Given.read (validate : Validator) : Given → Checked Block
  | block b => .ok b
  | data d => validate d

/-- The blocks that are given; the first faulty one stands for all. -/
def readAll (validate : Validator) (given : List Given) : Except Failure (List Block) :=
  (given.mapM (Given.read validate)).mapError .record

/-- The answer to a request, and the session afterwards. -/
def step (s : Session) : Request → Answer × Session
  | .invalidate => (.forgotten, s.invalidate)
  | .analyze given trigger =>
    match readAll s.validate given with
    | .error e => (.analyzed (.error e), s)
    | .ok blocks =>
      match s.analyze blocks trigger with
      | .error e => (.analyzed (.error (.settings e)), s)
      | .ok (snapshot, kept, next) => (.analyzed (.ok (snapshot, kept)), next)

def after (s : Session) (requests : List Request) : Session := requests.foldl (fun s r => (s.step r).2) s

def answers (s : Session) : List Request → List Answer
  | [] => []
  | r :: rs => (s.step r).1 :: (s.step r).2.answers rs

end Session

def Snapshot.toData (s : Snapshot) : Data := .ofTable [("result", s.analysis.toData), ("routes", s.routes.toData)]

end Plotline
