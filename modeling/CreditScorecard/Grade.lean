import CreditScorecard.Binary64.Basic
import CreditScorecard.Points

/-! # Risk grades

A total is graded by its place below the ceiling of the scorecard: from six tenths on the risk is
low, from four tenths on it is medium. The two thresholds are products of doubles, so they carry
the rounding of the format. The grade fixes the documents an applicant has to provide.
-/

namespace CreditScorecard

/-- The documents of the application checklist. -/
inductive Document where
  | nationalRegistrationCard
  | payslip
  | bankStatement
  | guarantor
deriving DecidableEq, Repr

namespace Document

def all : List Document :=
  [.nationalRegistrationCard, .payslip, .bankStatement, .guarantor]

/-- The code under which a document is filed. -/
def code : Document → String
  | .nationalRegistrationCard => "NRC"
  | .payslip => "PAYSLIP"
  | .bankStatement => "BANK_STATEMENT"
  | .guarantor => "GUARANTOR"

def ofCode? (code : String) : Option Document :=
  all.find? (·.code == code)

end Document

/-- The risk of lending to an applicant. -/
inductive Grade where
  | high
  | medium
  | low
deriving DecidableEq, Repr

namespace Grade

def all : List Grade :=
  [.high, .medium, .low]

def name : Grade → String
  | .high => "HIGH"
  | .medium => "MEDIUM"
  | .low => "LOW"

def ofName? (name : String) : Option Grade :=
  all.find? (·.name == name)

/-- How favourable a grade is for the applicant. -/
def favour : Grade → Nat
  | .high => 0
  | .medium => 1
  | .low => 2

/-- The part of the ceiling from which the risk is low. -/
def lowCutoff : Binary64 :=
  .ofDecimal false ⟨6, -1⟩

/-- The part of the ceiling from which the risk is medium. -/
def mediumCutoff : Binary64 :=
  .ofDecimal false ⟨4, -1⟩

/-- The grade of a total against the ceiling of its scorecard. -/
def ofScore (total ceiling : Points) : Grade :=
  let score := Binary64.ofInt total.value
  let most := Binary64.ofInt ceiling.value
  if Binary64.le (lowCutoff.mul most) score then .low
  else if Binary64.le (mediumCutoff.mul most) score then .medium
  else .high

/-- The documents to provide: the riskier the grade, the longer the list. -/
def documents : Grade → List Document
  | .low => [.nationalRegistrationCard, .payslip]
  | .medium => [.nationalRegistrationCard, .payslip, .bankStatement]
  | .high => [.nationalRegistrationCard, .payslip, .bankStatement, .guarantor]

theorem documents_prefix_of_favour_le {a b : Grade} (h : a.favour ≤ b.favour) :
    b.documents <+: a.documents := by
  cases a <;> cases b <;> first | decide | exact absurd h (by decide)

end Grade

end CreditScorecard
