import Advisor.Account.View
import Advisor.Plan.Basic
import Advisor.Scan.Row

namespace Advisor.Scan

structure Context where
  tabId : Option String
  scanId : Option String
  snapshot : Json.Fields
  summary : Option Summary
  rows : List Row
  account : Account.View

namespace Context

def empty : Context := ⟨none, none, [], none, [], .empty⟩

instance : Inhabited Context := ⟨empty⟩

open Json.Decoder

def toJson (c : Context) : Json :=
  .obj [
    ("tab_id", .ofOption .str c.tabId), ("scan_id", .ofOption .str c.scanId),
    ("scan_snapshot", .obj c.snapshot), ("summary", .ofOption Summary.toJson c.summary),
    ("rows", .arr (c.rows.map Row.toJson)), ("runtime", c.account.toJson)]

/-- Account data is never read from a client. -/
def decoder : Json.Decoder Context :=
  record
    [ defaulted "tab_id" (option string) fun v c => { c with tabId := v },
      defaulted "scan_id" (option string) fun v c => { c with scanId := v },
      defaulted "scan_snapshot" fields fun v c => { c with snapshot := v },
      defaulted "summary" (option Summary.decoder) fun v c => { c with summary := v },
      defaulted "rows" (list Row.decoder) fun v c => { c with rows := v }]
    .empty

def maxRows : Nat := 100

def generalRows : Nat := 12

def scopedByIntent (c : Context) : Intent → Context
  | .smalltalk => { c with rows := [], summary := none }
  | .productHelp | .webResearch => { c with rows := [] }
  | .general => { c with rows := c.rows.take generalRows }
  | .tradingAnalysis | .debugSupport => c

def scopedByLevel (c : Context) : ContextLevel → Context
  | .none => { c with rows := [], summary := none }
  | .summary => { c with rows := [] }
  | .full => { c with rows := c.rows.take maxRows }

/-- The context cut to a plan: to its intent first, then to its level. -/
def scopedTo (c : Context) (plan : Plan) : Context :=
  (c.scopedByIntent plan.intent).scopedByLevel plan.contextLevel

@[simp] theorem account_scopedTo (c : Context) (plan : Plan) :
    (c.scopedTo plan).account = c.account := by
  unfold scopedTo scopedByLevel scopedByIntent
  cases plan.contextLevel <;> cases plan.intent <;> rfl

end Context

end Advisor.Scan
