import RoutePolicy.Codec.Diagnostic
import RoutePolicy.Diagnostic.Report

/-!
# Reports as data
-/

set_option autoImplicit false

namespace RoutePolicy

/-- The numbers of findings as data. -/
def FindingCounts.toJson (c : FindingCounts) : Json :=
  .object [("undefined_references", .nat c.undefinedReferences),
    ("unsupported_constructs", .nat c.unsupportedConstructs), ("call_cycles", .nat c.callCycles),
    ("depth_exceeded", .nat c.depthExceeded)]

/-- Diagnostics as data, with their wording. -/
def diagnosticsToJson (ds : List Diagnostic) : Json := .array (ds.map Diagnostic.toJson)

namespace Report

/-- A report as data: a summary, with the wording of the diagnostics. -/
def summary (r : Report) (recorded : Nat) : Json :=
  .object [("clean", .bool r.isClean), ("counts", r.counts.toJson),
    ("diagnostics", diagnosticsToJson r.diagnostics),
    ("table_fingerprint", Json.orNull .string r.tableFingerprint), ("recorded", .nat recorded)]

/-- A report as data, without anything that can be computed from it. -/
def toRecord (r : Report) : Json :=
  .object [("diagnostics", .array (r.diagnostics.map Diagnostic.toRecord)),
    ("table_fingerprint", Json.orNull .string r.tableFingerprint)]

end Report

end RoutePolicy
