import Conformance.Catalog.Basic

namespace Conformance.Builtin

def validEntries1 : List Entry := [
  .detailed "intLiterals/exitBinary.wacc" (some 5) false,
  .detailed "intLiterals/exitBinaryNegative.wacc" (some 251) false,
  .detailed "intLiterals/exitDecimal.wacc" (some 34) false,
  .detailed "intLiterals/exitDecimalNegative.wacc" (some 222) false,
  .detailed "intLiterals/exitHexadecimal.wacc" (some 17) false,
  .detailed "intLiterals/exitHexadecimalNegative.wacc" (some 239) false,
  .detailed "intLiterals/exitOctal.wacc" (some 15) false,
  .detailed "intLiterals/exitOctalNegative.wacc" (some 241) false,
  .detailed "intLiterals/multipleIntLiterals.wacc" (some 15) false,
  .bare "stringHandling/containsSubstring.wacc",
  .bare "stringHandling/stringLiterConcat.wacc",
  .bare "bitwise/bitwiseAnd.wacc",
  .bare "bitwise/bitwiseNot.wacc",
  .bare "bitwise/bitwiseOr.wacc",
  .bare "if/ifNoElseOddNumCounter.wacc",
  .bare "while/nestedWhileBreak.wacc",
  .bare "while/whileProceed.wacc",
  .bare "doWhile/doWhileBasic.wacc",
  .bare "doWhile/doWhileBreak.wacc",
  .bare "doWhile/doWhileCount.wacc",
  .bare "doWhile/doWhileProceed.wacc",
  .bare "for/forBasic.wacc",
  .bare "for/forBreak.wacc",
  .bare "for/forCount.wacc",
  .bare "for/forProceed.wacc",
  .bare "switch/switchBasic.wacc",
  .bare "switch/switchFallthrough.wacc",
  .bare "switch/switchMultiCase.wacc",
  .bare "array/array.wacc",
  .bare "array/arrayBasic.wacc",
  .bare "array/arrayEmpty.wacc",
  .bare "array/arrayLength.wacc",
  .bare "array/arrayLookup.wacc",
  .bare "array/arrayNested.wacc",
  .bare "array/arrayPrint.wacc",
  .bare "array/arraySimple.wacc",
  .bare "array/modifyString.wacc",
  .bare "array/printRef.wacc",
  .detailed "basic/exit/exit-1.wacc" (some (-1)) false,
  .detailed "basic/exit/exitBasic.wacc" (some 7) false,
  .detailed "basic/exit/exitBasic2.wacc" (some 42) false,
  .bare "basic/exit/exitWrap.wacc",
  .bare "basic/skip/comment.wacc",
  .bare "basic/skip/commentInLine.wacc",
  .bare "basic/skip/skip.wacc",
  .bare "expressions/andExpr.wacc",
  .bare "expressions/boolCalc.wacc",
  .bare "expressions/boolExpr1.wacc",
  .bare "expressions/charComparisonExpr.wacc",
  .bare "expressions/divExpr.wacc",
  .bare "expressions/equalsExpr.wacc",
  .bare "expressions/greaterEqExpr.wacc",
  .bare "expressions/greaterExpr.wacc",
  .bare "expressions/intCalc.wacc",
  .bare "expressions/intExpr1.wacc",
  .bare "expressions/lessCharExpr.wacc",
  .bare "expressions/lessEqExpr.wacc",
  .bare "expressions/lessExpr.wacc",
  .bare "expressions/longExpr.wacc",
  .bare "expressions/longExpr2.wacc",
  .bare "expressions/longExpr3.wacc",
  .bare "expressions/longSplitExpr.wacc",
  .bare "expressions/longSplitExpr2.wacc",
  .bare "expressions/minusExpr.wacc",
  .bare "expressions/minusMinusExpr.wacc",
  .bare "expressions/minusNoWhitespaceExpr.wacc",
  .bare "expressions/minusPlusExpr.wacc",
  .bare "expressions/modExpr.wacc",
  .bare "expressions/multExpr.wacc",
  .bare "expressions/multNoWhitespaceExpr.wacc",
  .bare "expressions/negBothDiv.wacc",
  .bare "expressions/negBothMod.wacc",
  .bare "expressions/negDividendDiv.wacc",
  .bare "expressions/negDividendMod.wacc",
  .bare "expressions/negDivisorDiv.wacc",
  .bare "expressions/negDivisorMod.wacc",
  .bare "expressions/negExpr.wacc",
  .bare "expressions/notequalsExpr.wacc",
  .bare "expressions/notExpr.wacc",
  .bare "expressions/ordAndchrExpr.wacc",
  .bare "expressions/orExpr.wacc",
  .bare "expressions/plusExpr.wacc",
  .bare "expressions/plusMinusExpr.wacc",
  .bare "expressions/plusNoWhitespaceExpr.wacc",
  .detailed "expressions/plusPlusExpr.wacc" none true,
  .bare "expressions/sequentialCount.wacc",
  .bare "expressions/stringEqualsExpr.wacc",
  .bare "function/nested_functions/fibonacciFullRec.wacc",
  .bare "function/nested_functions/fibonacciRecursive.wacc",
  .bare "function/nested_functions/fixedPointRealArithmetic.wacc",
  .bare "function/nested_functions/functionConditionalReturn.wacc",
  .bare "function/nested_functions/mutualRecursion.wacc",
  .bare "function/nested_functions/printInputTriangle.wacc",
  .bare "function/nested_functions/printTriangle.wacc",
  .bare "function/nested_functions/simpleRecursion.wacc",
  .bare "function/simple_functions/asciiTable.wacc",
  .bare "function/simple_functions/functionDeclaration.wacc",
  .bare "function/simple_functions/functionManyArguments.wacc",
  .bare "function/simple_functions/functionReturnPair.wacc",
  .bare "function/simple_functions/functionSimple.wacc",
  .bare "function/simple_functions/functionUpdateParameter.wacc",
  .bare "function/simple_functions/incFunction.wacc",
  .bare "function/simple_functions/negFunction.wacc",
  .bare "function/simple_functions/sameArgName.wacc",
  .bare "function/simple_functions/sameArgName2.wacc",
  .bare "if/if1.wacc",
  .bare "if/if2.wacc",
  .bare "if/if3.wacc",
  .bare "if/if4.wacc",
  .bare "if/if5.wacc"]

def validEntries2 : List Entry := [
  .bare "if/if6.wacc",
  .bare "if/ifBasic.wacc",
  .bare "if/ifFalse.wacc",
  .bare "if/ifTrue.wacc",
  .bare "if/whitespace.wacc",
  .bare "IO/IOLoop.wacc",
  .bare "IO/IOSequence.wacc",
  .bare "IO/print/hashInProgram.wacc",
  .bare "IO/print/multipleStringsAssignment.wacc",
  .bare "IO/print/print.wacc",
  .bare "IO/print/printBool.wacc",
  .bare "IO/print/printChar.wacc",
  .bare "IO/print/printEscChar.wacc",
  .bare "IO/print/printInt.wacc",
  .bare "IO/print/println.wacc",
  .bare "IO/print/stringAssignmentWithPrint.wacc",
  .bare "IO/read/echoBigInt.wacc",
  .bare "IO/read/echoBigNegInt.wacc",
  .bare "IO/read/echoChar.wacc",
  .bare "IO/read/echoInt.wacc",
  .bare "IO/read/echoNegInt.wacc",
  .bare "IO/read/echoPuncChar.wacc",
  .bare "IO/read/read.wacc",
  .bare "pairs/checkRefPair.wacc",
  .bare "pairs/createPair.wacc",
  .bare "pairs/createPair02.wacc",
  .bare "pairs/createPair03.wacc",
  .bare "pairs/createRefPair.wacc",
  .bare "pairs/free.wacc",
  .bare "pairs/linkedList.wacc",
  .bare "pairs/nestedPair.wacc",
  .bare "pairs/null.wacc",
  .bare "pairs/printNull.wacc",
  .bare "pairs/printNullPair.wacc",
  .bare "pairs/printPair.wacc",
  .bare "pairs/printPairOfNulls.wacc",
  .bare "pairs/readPair.wacc",
  .bare "pairs/writeFst.wacc",
  .bare "pairs/writeSnd.wacc",
  .bare "runtimeErr/arrayOutOfBounds/arrayNegBounds.wacc",
  .bare "runtimeErr/arrayOutOfBounds/arrayOutOfBounds.wacc",
  .bare "runtimeErr/arrayOutOfBounds/arrayOutOfBoundsWrite.wacc",
  .bare "runtimeErr/divideByZero/divideByZero.wacc",
  .bare "runtimeErr/divideByZero/divZero.wacc",
  .bare "runtimeErr/divideByZero/modByZero.wacc",
  .bare "runtimeErr/doubleFrees/doubleFree.wacc",
  .bare "runtimeErr/doubleFrees/hiddenDoubleFree.wacc",
  .bare "runtimeErr/integerOverflow/intJustOverflow.wacc",
  .bare "runtimeErr/integerOverflow/intmultOverflow.wacc",
  .bare "runtimeErr/integerOverflow/intnegateOverflow.wacc",
  .bare "runtimeErr/integerOverflow/intnegateOverflow2.wacc",
  .bare "runtimeErr/integerOverflow/intnegateOverflow3.wacc",
  .bare "runtimeErr/integerOverflow/intnegateOverflow4.wacc",
  .bare "runtimeErr/integerOverflow/intUnderflow.wacc",
  .bare "runtimeErr/integerOverflow/intWayOverflow.wacc",
  .bare "runtimeErr/nullDereference/freeNull.wacc",
  .bare "runtimeErr/nullDereference/readNull1.wacc",
  .bare "runtimeErr/nullDereference/readNull2.wacc",
  .bare "runtimeErr/nullDereference/setNull1.wacc",
  .bare "runtimeErr/nullDereference/setNull2.wacc",
  .bare "runtimeErr/nullDereference/useNull1.wacc",
  .bare "runtimeErr/nullDereference/useNull2.wacc",
  .bare "scope/ifNested1.wacc",
  .bare "scope/ifNested2.wacc",
  .bare "scope/indentationNotImportant.wacc",
  .bare "scope/intsAndKeywords.wacc",
  .bare "scope/printAllTypes.wacc",
  .bare "scope/scope.wacc",
  .bare "scope/scopeBasic.wacc",
  .bare "scope/scopeRedefine.wacc",
  .bare "scope/scopeSimpleRedefine.wacc",
  .bare "scope/scopeVars.wacc",
  .bare "sequence/basicSeq.wacc",
  .bare "sequence/basicSeq2.wacc",
  .bare "sequence/boolAssignment.wacc",
  .bare "sequence/charAssignment.wacc",
  .bare "sequence/exitSimple.wacc",
  .bare "sequence/intAssignment.wacc",
  .bare "sequence/intLeadingZeros.wacc",
  .bare "sequence/stringAssignment.wacc",
  .bare "variables/_VarNames.wacc",
  .bare "variables/boolDeclaration.wacc",
  .bare "variables/boolDeclaration2.wacc",
  .bare "variables/capCharDeclaration.wacc",
  .bare "variables/charDeclaration.wacc",
  .bare "variables/charDeclaration2.wacc",
  .bare "variables/emptyStringDeclaration.wacc",
  .bare "variables/intDeclaration.wacc",
  .bare "variables/longVarNames.wacc",
  .bare "variables/manyVariables.wacc",
  .bare "variables/negIntDeclaration.wacc",
  .bare "variables/puncCharDeclaration.wacc",
  .bare "variables/stringDeclaration.wacc",
  .bare "variables/zeroIntDeclaration.wacc",
  .bare "while/fibonacciFullIt.wacc",
  .bare "while/fibonacciIterative.wacc",
  .bare "while/loopCharCondition.wacc",
  .bare "while/loopIntCondition.wacc",
  .bare "while/max.wacc",
  .bare "while/min.wacc",
  .bare "while/rmStyleAdd.wacc",
  .bare "while/rmStyleAddIO.wacc",
  .bare "while/whileBasic.wacc",
  .bare "while/whileBoolFlip.wacc",
  .bare "while/whileCount.wacc",
  .bare "while/whileFalse.wacc"]

def syntaxInvalidEntries1 : List Entry := [
  .bare "array/arrayExpr.wacc",
  .bare "basic/badComment.wacc",
  .bare "basic/badComment2.wacc",
  .bare "basic/badEscape.wacc",
  .bare "basic/beginNoend.wacc",
  .bare "basic/bgnErr.wacc",
  .bare "basic/multipleBegins.wacc",
  .bare "basic/noBody.wacc",
  .bare "basic/skpErr.wacc",
  .bare "basic/unescapedChar.wacc",
  .bare "expressions/missingOperand1.wacc",
  .bare "expressions/missingOperand2.wacc",
  .detailed "expressions/printlnConcat.wacc" none true,
  .bare "function/badlyNamed.wacc",
  .bare "function/badlyPlaced.wacc",
  .bare "function/funcExpr.wacc",
  .bare "function/funcExpr2.wacc",
  .bare "function/functionConditionalNoReturn.wacc",
  .bare "function/functionJunkAfterReturn.wacc",
  .bare "function/functionLateDefine.wacc",
  .bare "function/functionMissingCall.wacc",
  .bare "function/functionMissingParam.wacc",
  .bare "function/functionMissingPType.wacc",
  .bare "function/functionMissingType.wacc",
  .bare "function/functionNoReturn.wacc",
  .bare "function/functionScopeDef.wacc",
  .bare "function/mutualRecursionNoReturn.wacc",
  .bare "function/noBodyAfterFuncs.wacc",
  .bare "function/thisIsNotC.wacc",
  .bare "if/ifiErr.wacc",
  .detailed "if/ifNoelse.wacc" none true,
  .bare "if/ifNofi.wacc",
  .bare "if/ifNothen.wacc",
  .bare "pairs/badLookup01.wacc",
  .bare "pairs/badLookup02.wacc",
  .bare "sequence/doubleSeq.wacc",
  .bare "sequence/emptySeq.wacc",
  .bare "sequence/endSeq.wacc",
  .bare "sequence/extraSeq.wacc",
  .bare "sequence/missingSeq.wacc",
  .bare "variables/badintAssignments.wacc",
  .bare "variables/bigIntAssignment.wacc",
  .bare "variables/varNoName.wacc",
  .bare "while/donoErr.wacc",
  .bare "while/dooErr.wacc",
  .bare "while/whileNodo.wacc",
  .bare "while/whileNodone.wacc",
  .bare "while/whilErr.wacc"]

def semanticInvalidEntries1 : List Entry := [
  .bare "exit/badCharExit.wacc",
  .bare "exit/exitNonInt.wacc",
  .bare "exit/globalReturn.wacc",
  .bare "expressions/boolOpTypeErr.wacc",
  .bare "expressions/exprTypeErr.wacc",
  .bare "expressions/intOpTypeErr.wacc",
  .bare "expressions/lessPairExpr.wacc",
  .bare "expressions/mixedOpTypeErr.wacc",
  .bare "expressions/moreArrExpr.wacc",
  .bare "function/functionAssign.wacc",
  .bare "function/functionBadArgUse.wacc",
  .bare "function/functionBadCall.wacc",
  .bare "function/functionBadParam.wacc",
  .bare "function/functionBadReturn.wacc",
  .bare "function/functionOverArgs.wacc",
  .bare "function/functionRedefine.wacc",
  .bare "function/functionSwapArgs.wacc",
  .bare "function/functionUnderArgs.wacc",
  .bare "function/funcVarAccess.wacc",
  .bare "if/ifIntCondition.wacc",
  .bare "IO/readTypeErr.wacc",
  .bare "multiple/funcMess.wacc",
  .bare "multiple/ifAndWhileErrs.wacc",
  .bare "multiple/messyExpr.wacc",
  .bare "multiple/multiCaseSensitivity.wacc",
  .bare "multiple/multiTypeErrs.wacc",
  .bare "pairs/freeNonPair.wacc",
  .bare "print/printTypeErr01.wacc",
  .bare "read/readTypeErr01.wacc",
  .bare "scope/badScopeRedefine.wacc",
  .bare "variables/basicTypeErr01.wacc",
  .bare "variables/basicTypeErr02.wacc",
  .bare "variables/basicTypeErr03.wacc",
  .bare "variables/basicTypeErr04.wacc",
  .bare "variables/basicTypeErr05.wacc",
  .bare "variables/basicTypeErr06.wacc",
  .bare "variables/basicTypeErr07.wacc",
  .bare "variables/basicTypeErr08.wacc",
  .bare "variables/basicTypeErr09.wacc",
  .bare "variables/basicTypeErr10.wacc",
  .bare "variables/basicTypeErr11.wacc",
  .bare "variables/basicTypeErr12.wacc",
  .bare "variables/caseMatters.wacc",
  .bare "variables/doubleDeclare.wacc",
  .bare "variables/undeclaredScopeVar.wacc",
  .bare "variables/undeclaredVar.wacc",
  .bare "variables/undeclaredVarAccess.wacc",
  .bare "while/falsErr.wacc",
  .bare "while/truErr.wacc",
  .bare "while/whileIntCondition.wacc"]

-- The suite of the language that comes with the harness.
def catalog : Catalog where
  version := "v1"
  suites := [
    ⟨.valid, "valid/", validEntries1 ++ validEntries2⟩,
    ⟨.syntaxInvalid, "invalid/syntaxErr/", syntaxInvalidEntries1⟩,
    ⟨.semanticInvalid, "invalid/semanticErr/", semanticInvalidEntries1⟩]

end Conformance.Builtin
