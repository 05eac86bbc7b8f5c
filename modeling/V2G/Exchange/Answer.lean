import V2G.Build.Element
import V2G.Exchange.Correlation

/-!
# Answers

A response that is built for a request and bound to it at once.
-/

namespace V2G.Exchange

variable [Url.Reader]

/-- Why no response was made for a request. -/
inductive NoAnswer where
  | refused (refusal : Refusal)
  | failed (failure : Failure)

/-- Whether a class of elements answers a request, for classes that can be asked. -/
def classAnswers (e : Element) (request : Value) : Except Failure Bool :=
  if e.isResponse then .ok (answers e request)
  else .error (.misuse (.noClassAttribute "answers"))

/-- The names of the class of an answer and of its request, which no field may have. -/
def reservedNames : List String := ["cls", "request"]

/-- The response of a class that named arguments make, bound to the request. -/
def answering (e : Element) (request : Value) (args : Keyed Value) : Except NoAnswer Value :=
  if !e.isResponse then .error (.failed (.misuse (.noClassAttribute "answering")))
  else
    match args.keys.find? reservedNames.contains with
    | some name => .error (.failed (.misuse (.repeatedArgument name)))
    | none =>
      if !answers e request then (unanswered e request).mapError .failed
      else
        match e.build args with
        | .error refusal => .error (.refused refusal)
        | .ok response => (correlate response request).mapError .failed

end V2G.Exchange
