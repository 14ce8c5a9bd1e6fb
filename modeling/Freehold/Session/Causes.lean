import Freehold.ErrorKind
import Freehold.Outcome

/-!
# Portraits of causes

Everything that can be asked of a cause of failure, in one answer: its texts, the
questions that hold of it and of its category, the errors that carry it, and the
causes that such an error is equal to.
-/

namespace Freehold
namespace ErrorKind

/-- The ways to make an error of a cause; all of them give the same error. -/
def waysToRaise : Nat := 3

def questions (kind : ErrorKind) : List String :=
  (all.filter (fun asked => asked = kind)).map question

def categoryQuestions (category : ErrorCategory) : List String :=
  (ErrorCategory.all.filter (fun asked => asked = category)).map ErrorCategory.question

/-- How two causes compare: themselves, errors that carry them, their categories. -/
def compared (kind other : ErrorKind) : Shown :=
  .items [.flag (kind = other), .flag (kind = other), .flag (kind.category = other.category)]

def portrait (kind : ErrorKind) (other : Option ErrorKind) : Shown :=
  let category := kind.category
  let error := Shown.items [.text kind.message, .text kind.name]
  let equals := (all.filter (fun candidate => candidate = kind)).map ErrorKind.name
  .fields
    ([("kind", .text kind.message),
      ("category",
        .items [.text category.name, .text category.message,
          .items ((categoryQuestions category).map Shown.text)]),
      ("is", .items (kind.questions.map Shown.text)),
      ("errors", .items (List.replicate waysToRaise error)),
      ("equals", .items (equals.map Shown.text))] ++
    (other.map fun other => ("same", kind.compared other)).toList)

end ErrorKind
end Freehold
