import Causeway.Machine.Natives
import Causeway.Machine.Calls
/-!
# Performing operations

What each command does. Nested scripts are not run here: they are installed, and the library enters
them through the environment like any other user code.
-/
set_option autoImplicit false

namespace Causeway.Machine

open Causeway.Machine.Frame

def perform (fr : Frame) : Command (List Op) → Run Answer
  | .new v => performNew fr v pure
  | .nest v depth kind => performNew fr v (nestObject kind depth)
  | .drop reg => performDrop reg
  | .clone obj => withOwner obj fun h => do fr.yieldObject (some (← acquire h))
  | .giveBack obj => performGiveBack obj
  | .getSelf obj => fr.withObject obj fun h => do fr.yieldObject (some (← acquire h))
  | .raw obj => fr.withObject obj (performRaw fr)
  | .intoRaw obj => performIntoRaw fr obj
  | .fromRaw obj => fr.withObject obj fun h => fr.yieldObject (some h)
  | .acquire obj => fr.withObject obj fun h => do countOf (← acquire h)
  | .release obj => fr.withObject obj fun h => do
    release h
    countOf h
  | .inspect obj => fr.withObject obj performInspect
  | .inspectOwner obj => withOwner obj performInspectOwner
  | .same obj other =>
    fr.withObject obj fun h => fr.withObject other fun k => pure (.flag (h == k))
  | .mark => performMark fr
  | .since mark => performSince mark
  | .audit => Answer.count <$> audit
  | .cleanup => Answer.count <$> shutDown
  | .repr obj => fr.withObject obj fun h => Answer.text <$> repr h
  | .extract obj => fr.withObject obj performExtract
  | .items obj kind => fr.withObject obj fun h => performItems fr h kind
  | .append obj v => fr.withObject obj fun h => performAppend fr h v
  | .raise kind message => do
    raise kind message
    pure .nothing
  | .clear => do
    Indicator.clear
    pure .nothing
  | .fetch => performFetch fr
  | .restore reg => performRestore reg
  | .isSet => Answer.flag <$> Indicator.isSet
  | .isKind kind => Answer.flag <$> Indicator.holds kind
  | .getIter obj => fr.withObject obj fun h => do fr.yieldObject (← getIter h)
  | .next obj => fr.withObject obj fun h => do fr.yieldObject (← iterNext h)
  | .drain obj most => fr.withObject obj fun h => Answer.texts <$> drainTexts h most
  | .isIterable obj => fr.withObject obj fun h => Answer.flag <$> isIterable h
  | .isCallable obj => fr.withObject obj fun h => Answer.flag <$> isCallable h
  | .lengthHint obj => fr.withObject obj fun h => Answer.estimate <$> lengthHint h
  | .newArguments n => do fr.yieldObject (some (← newArguments n))
  | .setArgument obj index v => fr.withObject obj fun h => performSetArgument fr h index v
  | .invoke obj arguments =>
    fr.withObject obj fun h => fr.withObject arguments fun k => do fr.yieldObject (← invoke h k)
  | .call obj arguments => fr.withObject obj fun h => performCall fr h arguments
  | .function name steps native arity => performFunction fr name steps native arity
  | .nativeObject name iter next hint owns onDealloc =>
    performNativeObject fr name iter next hint owns onDealloc
  | .withState obj kind body => fr.withObject obj fun h => performWithState h kind body
  | .native t items form mode convert => performNative fr t items form mode convert
  | .range low high inclusive mode convert => performRange fr low high inclusive mode convert
  | .descriptor .iterable => Answer.descriptor <$> collectionDescriptor
  | .descriptor _ => Answer.descriptor <$> adapterDescriptor
  | .fromPeer obj t convert => fr.withObject obj fun h => performFromPeer fr h t convert
  | .toPeer t v convert => performToPeer fr t v convert
  | .show reg => performShow reg
  | .converterText t => pure (.texts [s!"ToNative<{t.path}>", s!"Deleter<{t.path}>"])
  | .view obj t convert deleter => fr.withObject obj fun h => performView fr h t convert deleter
  | .viewClone view => withView view (performViewClone fr)
  | .viewText view => withView view fun v => pure (.text (v.dump ++ " end=Exhausted"))
  | .collect view into => withView view fun v => performCollect fr v into
  | .forEach view body => withView view fun v => performForEach fr v body
  | .begin view => withView view (performBegin fr)
  | .it it => withCursor it (performLook fr)
  | .advance it => withCursor it (performAdvance fr)
  | .itNext it => withCursor it (performNext fr)
  | .itDrain it => withCursor it (performDrainCursor fr)
  | .itText it => withCursor it fun c => pure (c, .text c.dump)
  | .callable obj params returns returnConvert mode =>
    fr.withObject obj fun h => performCallable fr h params returns returnConvert (mode == .void)
  | .invokeCallable fn arguments => withCallable fn fun c => performInvokeCallable fr c arguments
  | .callableClone fn => withCallable fn (performCallableClone fr)
  | .callableText fn => withCallable fn fun c => pure (.text c.dump)
  | .describe f => pure (.description f)
  | .reflect source => performReflect source
  | .guardFailure f => do fr.yieldObject (← guarded (.error f))
  | .guardValue v => performGuardValue fr v
  | .apply document => performApply document

end Causeway.Machine
